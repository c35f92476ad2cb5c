import Transducer.Turnstile.Demo

/-!
# The program

Prints the transcript of the turnstile demonstration.
-/

def main : IO Unit :=
  IO.print Transducer.Turnstile.Demo.transcript

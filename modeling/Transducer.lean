import Transducer.Calendar
import Transducer.Document
import Transducer.Document.Codec
import Transducer.Fleet
import Transducer.Instant
import Transducer.Instant.Parser
import Transducer.Instant.Printer
import Transducer.Interpreter
import Transducer.Journal
import Transducer.Journal.Codec
import Transducer.Log
import Transducer.Machine
import Transducer.Machine.Plan
import Transducer.Machine.Session
import Transducer.Main
import Transducer.Record
import Transducer.Renaming
import Transducer.Rule
import Transducer.Rule.Codec
import Transducer.Sink
import Transducer.Sink.Recorder
import Transducer.Symbol
import Transducer.Table
import Transducer.Table.Draft
import Transducer.Table.Search
import Transducer.Turnstile
import Transducer.Turnstile.Demo
import Transducer.Turnstile.Rules
import Transducer.Turnstile.Session
import Transducer.Proofs.Acceptance
import Transducer.Proofs.Admission
import Transducer.Proofs.Atomicity
import Transducer.Proofs.Coherence
import Transducer.Proofs.Coins
import Transducer.Proofs.Course
import Transducer.Proofs.Discovery
import Transducer.Proofs.Dispatch
import Transducer.Proofs.Enabled
import Transducer.Proofs.Facade
import Transducer.Proofs.Interchange
import Transducer.Proofs.Isolation
import Transducer.Proofs.Lending
import Transducer.Proofs.Numerals
import Transducer.Proofs.Output
import Transducer.Proofs.Reachability
import Transducer.Proofs.Reaction
import Transducer.Proofs.Recording
import Transducer.Proofs.Records
import Transducer.Proofs.Refusal
import Transducer.Proofs.Renaming
import Transducer.Proofs.Replay
import Transducer.Proofs.Rounds
import Transducer.Proofs.Search
import Transducer.Proofs.Spans
import Transducer.Proofs.Storage
import Transducer.Proofs.Timeline
import Transducer.Proofs.Timestamps
import Transducer.Proofs.Transparency
import Transducer.Proofs.Walk

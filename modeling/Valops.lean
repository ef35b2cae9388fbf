import Valops.Audit.SingleWriter
import Valops.Conc.Local
import Valops.Conc.Runs
import Valops.Py.Dict
import Valops.Bundle.Registry
import Valops.Store.Transitions
import Valops.Store.Fold
import Valops.Common.Tokens
import Valops.Common.Satisfies
import Valops.Common.Gate
import Valops.Store.Codec
import Valops.Store.Service
import Valops.Store.Guards
import Valops.Store.Log
import Valops.Store.System
import Valops.Store.Ledger
import Valops.Store.StateMachine
import Valops.Store.Terminal
import Valops.Store.Replay
import Valops.Store.Opening
import Valops.Store.Isolation
import Valops.Store.Contracts
import Valops.Store.Authority
import Valops.Store.Repeat
import Valops.Brokers.Net
import Valops.Brokers.Revocation
import Valops.Brokers.Success
import Valops.Audit.Recovery
import Valops.Audit.Durable
import Valops.Bundle.Lifecycle
import Valops.Bundle.Manifest
import Valops.Py.LineEnds
import Valops.Py.Lines
import Valops.Audit.Client
import Valops.Sentinel.Consensus
import Valops.Sentinel.Findings
import Valops.Sentinel.Healthy
import Valops.Observer.Chain
import Valops.Observer.Forward
import Valops.Conc.Loop
import Valops.Controller.Artefacts
import Valops.Controller.Preflight
import Valops.Controller.FalseAlarm
import Valops.Controller.Flag
import Valops.Conc.Trace
import Valops.Observer.RateLimit
import Valops.Observer.Suspended
import Valops.Observer.Breaker
import Valops.Py.Unicode
import Valops.Observer.Arguments
import Valops.Observer.Redact
import Valops.Py.Decode
import Valops.Observer.CommandLine
import Valops.Controller.Runner
import Valops.Controller.CleanUp
import Valops.Verifier.Streaks
import Valops.Verifier.Resolution
import Valops.ModelBroker.Agreement
import Valops.ModelBroker.Budget
import Valops.ModelBroker.Barrier
import Valops.Audit.Answers
import Valops.Bundle.Answers
import Valops.Bundle.Bounds
import Valops.Bundle.Builder
import Valops.Verifier.Runnable
import Valops.Brokers.Citable
import Valops.Brokers.Runbook
import Valops.Brokers.StateCheck
import Valops.Brokers.AlertLog
import Valops.Brokers.Escalation
import Valops.Brokers.Duplicates
import Valops.Audit.Payloads
import Valops.Common.Canonical
import Valops.Controller.Retries
import Valops.Controller.Conduct
import Valops.Eval.Fixtures
import Valops.Bundle.Rollback
import Valops.Eval.Ledger

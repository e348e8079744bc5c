import ProcedureBridge.Diagnostic.ReportJson
import ProcedureBridge.Options.Json
import ProcedureBridge.Host.Memory
import ProcedureBridge.Session.Basic
import ProcedureBridge.Lua.Engine
import ProcedureBridge.Proofs.Cache.Refinement
import ProcedureBridge.Proofs.Diagnostic.Chain
import ProcedureBridge.Proofs.Diagnostic.Layers
import ProcedureBridge.Proofs.Interrupt.History
import ProcedureBridge.Proofs.Scope.Refinement
import ProcedureBridge.Proofs.Scope.Refusals
import ProcedureBridge.Proofs.Session.CachedUnits
import ProcedureBridge.Proofs.Session.Cancellation
import ProcedureBridge.Proofs.Session.Fatal
import ProcedureBridge.Proofs.Session.FatalScopes
import ProcedureBridge.Proofs.Session.Handled
import ProcedureBridge.Proofs.Session.Handles
import ProcedureBridge.Proofs.Session.Refresh
import ProcedureBridge.Proofs.Session.HostError
import ProcedureBridge.Proofs.Session.Pending
import ProcedureBridge.Proofs.Session.Reported
import ProcedureBridge.Proofs.Session.Restarts
import ProcedureBridge.Proofs.Session.Termination
import ProcedureBridge.Proofs.Session.Uncaught
import ProcedureBridge.Proofs.Session.Triggers
import ProcedureBridge.Proofs.Bridge.LoadHistory
import ProcedureBridge.Proofs.Bridge.Patterns
import ProcedureBridge.Proofs.Cache.Statistics
import ProcedureBridge.Proofs.Diagnostic.Classification
import ProcedureBridge.Proofs.Diagnostic.ReportText
import ProcedureBridge.Proofs.Options.Text
import ProcedureBridge.Proofs.Session.Statistics
import ProcedureBridge.Proofs.Session.Validation

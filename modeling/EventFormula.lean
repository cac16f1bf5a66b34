import EventFormula.Main
import EventFormula.Session
import EventFormula.Trace.Recording
import EventFormula.Json.Printer
import EventFormula.Proofs.Lowering.Reuse
import EventFormula.Proofs.Call.Alignment
import EventFormula.Proofs.Lowering.Composition
import EventFormula.Proofs.Lowering.Limit
import EventFormula.Proofs.Trace.Reading
import EventFormula.Proofs.Target.Dispatch
import EventFormula.Proofs.Session.History
import EventFormula.Proofs.Lowering.Freshness
import EventFormula.Proofs.Lowering.Earliest
import EventFormula.Proofs.Lowering.Translation
import EventFormula.Proofs.Target.Literals
import EventFormula.Proofs.Target.Atoms
import EventFormula.Proofs.Lowering.Shadowing
import EventFormula.Proofs.Target.Recording
import EventFormula.Proofs.Lowering.Once
import EventFormula.Proofs.Target.ListNames
import EventFormula.Proofs.Trace.Refusal
import EventFormula.Proofs.Session.Bookkeeping
import EventFormula.Proofs.Target.Nesting
import EventFormula.Proofs.Call.Positions
import EventFormula.Proofs.Call.Required
import EventFormula.Proofs.Token.Longest
import EventFormula.Proofs.Token.Runs
import EventFormula.Proofs.Call.Bounds
import EventFormula.Proofs.Target.Folding
import EventFormula.Proofs.Lowering.Threshold
import EventFormula.Proofs.Target.Expansion
import EventFormula.Proofs.Session.Visits
import EventFormula.Proofs.Lowering.Normal
import EventFormula.Proofs.Token.Quotes
import EventFormula.Proofs.CommandLine.Occurrences
import EventFormula.Proofs.Diagnostic.Carets
import EventFormula.Proofs.Json.Descriptions
import EventFormula.Proofs.Project.GroupType

import Abla.Syntax.Parse
import Abla.Syntax.Sites
import Abla.Syntax.Outline
import Abla.Text.Quoted
import Abla.Text.Identifier
import Abla.Codegen.Generate
import Abla.Ir.Text
import Abla.Build.Service
import Abla.Build.Machine
import Abla.Session.Repl
import Abla.Toml.Read
import Abla.Project.Semver
import Abla.Project.Profile
import Abla.Cli.Report
import Abla.Cli.Args
import Abla.Cli.Run
import Abla.Main
import Abla.Proofs.Service.Registry
import Abla.Proofs.Service.Effects
import Abla.Proofs.Service.Waits
import Abla.Proofs.Service.Nesting
import Abla.Proofs.Service.Deadlock
import Abla.Proofs.Service.Frame
import Abla.Proofs.Service.Outcomes
import Abla.Proofs.Service.Install
import Abla.Proofs.Service.Ledger
import Abla.Proofs.Service.Drain
import Abla.Proofs.Syntax.Lexing
import Abla.Proofs.Syntax.Total
import Abla.Ir.Exec
import Abla.Proofs.Codegen.Emit
import Abla.Proofs.Codegen.Arith
import Abla.Proofs.Syntax.Numbering
import Abla.Proofs.Typing.Scoping
import Abla.Proofs.Eval.Safety
import Abla.Proofs.Service.Execution
import Abla.Proofs.Eval.CallDepth
import Abla.Proofs.Service.Naming
import Abla.Proofs.Typing.Equivalence
import Abla.Proofs.Service.Locking
import Abla.Proofs.Eval.Lexical
import Abla.Proofs.Codegen.Footprint
import Abla.Proofs.Codegen.Returns
import Abla.Proofs.Syntax.Precedence
import Abla.Proofs.Service.Confinement
import Abla.Proofs.Service.Imports
import Abla.Proofs.Syntax.StringParts
import Abla.Proofs.Codegen.Interning
import Abla.Proofs.Codegen.StringConstants
import Abla.Proofs.Syntax.Lexemes
import Abla.Proofs.Syntax.SpanTrees
import Abla.Proofs.Codegen.PostOrder
import Abla.Proofs.Typing.ReadBack
import Abla.Proofs.Typing.Declared
import Abla.Proofs.Typing.Layout
import Abla.Proofs.Codegen.Integrity
import Abla.Proofs.Codegen.Declaring
import Abla.Proofs.Eval.Moves
import Abla.Proofs.Service.Readiness
import Abla.Proofs.Service.Installing
import Abla.Proofs.Codegen.Installed

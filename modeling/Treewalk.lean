import Treewalk.Datum.Basic
import Treewalk.Datum.Json
import Treewalk.Datum.Timestamp
import Treewalk.Document
import Treewalk.ErrorKind
import Treewalk.Eval.Basic
import Treewalk.Eval.Run
import Treewalk.Executor
import Treewalk.Fault
import Treewalk.Files
import Treewalk.HelpPage
import Treewalk.Journal
import Treewalk.Level
import Treewalk.Main
import Treewalk.Number.Binary64
import Treewalk.Number.Shortest
import Treewalk.Number.Written
import Treewalk.Options
import Treewalk.Proofs.Datum.Written
import Treewalk.Proofs.ErrorKind.Leaves
import Treewalk.Proofs.Eval.Abort
import Treewalk.Proofs.Eval.Activation
import Treewalk.Proofs.Eval.Adequacy
import Treewalk.Proofs.Eval.Binding
import Treewalk.Proofs.Eval.Blame
import Treewalk.Proofs.Eval.Classification
import Treewalk.Proofs.Eval.Congruence
import Treewalk.Proofs.Eval.Coupling
import Treewalk.Proofs.Eval.Discipline
import Treewalk.Proofs.Eval.Eager
import Treewalk.Proofs.Eval.Growth
import Treewalk.Proofs.Eval.Irrelevance
import Treewalk.Proofs.Eval.Isomorphism
import Treewalk.Proofs.Eval.Listening
import Treewalk.Proofs.Eval.Literal
import Treewalk.Proofs.Eval.Notes
import Treewalk.Proofs.Eval.Recursion
import Treewalk.Proofs.Eval.Redeclaration
import Treewalk.Proofs.Eval.Rules
import Treewalk.Proofs.Eval.SinkLimit
import Treewalk.Proofs.Eval.SinkOffset
import Treewalk.Proofs.Eval.Statements
import Treewalk.Proofs.Eval.WriteFrame
import Treewalk.Proofs.Json.Decode
import Treewalk.Proofs.Json.Grammar
import Treewalk.Proofs.Json.Integer
import Treewalk.Proofs.Json.Member
import Treewalk.Proofs.Json.Number
import Treewalk.Proofs.Json.Read
import Treewalk.Proofs.Json.Shape
import Treewalk.Proofs.Json.Structure
import Treewalk.Proofs.Runner.Output
import Treewalk.Proofs.Session.Accounts
import Treewalk.Proofs.Store.Access
import Treewalk.Proofs.Store.Assignment
import Treewalk.Proofs.Store.Chain
import Treewalk.Proofs.Store.Declaration
import Treewalk.Proofs.Store.Heap
import Treewalk.Proofs.Store.Pairing
import Treewalk.Proofs.Store.Reach
import Treewalk.Proofs.Store.Representation
import Treewalk.Proofs.Store.WellFormed
import Treewalk.Proofs.Text.Integer
import Treewalk.Proofs.Text.LowerCase
import Treewalk.Proofs.Text.Utf8
import Treewalk.Proofs.Tree.Complete
import Treewalk.Proofs.Tree.Encoding
import Treewalk.Proofs.Tree.Node
import Treewalk.Proofs.Tree.Totality
import Treewalk.Proofs.Value.Arithmetic
import Treewalk.Runner
import Treewalk.Session
import Treewalk.Store.Basic
import Treewalk.Table
import Treewalk.Tally
import Treewalk.Text
import Treewalk.Text.Integer
import Treewalk.Text.LowerCase
import Treewalk.Text.Printable
import Treewalk.Text.Quoted
import Treewalk.Text.Truth
import Treewalk.Text.Utf8
import Treewalk.Tree.Basic
import Treewalk.Tree.Decode
import Treewalk.Tree.Printer
import Treewalk.Tree.Samples
import Treewalk.Value.Basic
import Treewalk.Value.Operator
import Treewalk.Wire.Error
import Treewalk.Wire.Escape
import Treewalk.Wire.Member
import Treewalk.Wire.Slice
import Treewalk.Wire.Value
import Treewalk.Yaml.Block
import Treewalk.Yaml.Cursor
import Treewalk.Yaml.Fold
import Treewalk.Yaml.Input
import Treewalk.Yaml.Lexer
import Treewalk.Yaml.Load
import Treewalk.Yaml.Node
import Treewalk.Yaml.Plain
import Treewalk.Yaml.Quoted
import Treewalk.Yaml.Scalar
import Treewalk.Yaml.Tag
import Treewalk.Yaml.Token

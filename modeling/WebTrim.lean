import WebTrim.Calc.Fold
import WebTrim.Color.Fold
import WebTrim.Corpus.Allocation
import WebTrim.FileTree
import WebTrim.Gate
import WebTrim.Literal.ClassList
import WebTrim.Literal.IdReference
import WebTrim.Main
import WebTrim.Markup.Facts
import WebTrim.Markup.Name
import WebTrim.Markup.Rename
import WebTrim.Naming.Allocate
import WebTrim.Optimize
import WebTrim.Proofs.Corpus.Agreement
import WebTrim.Proofs.Corpus.ClassLiteral
import WebTrim.Proofs.Corpus.EscapedMarkup
import WebTrim.Proofs.Corpus.HashSelector
import WebTrim.Proofs.Corpus.Safety
import WebTrim.Proofs.Literal.ClassList
import WebTrim.Proofs.Literal.IdReference
import WebTrim.Proofs.Literal.IdSelector
import WebTrim.Proofs.Literal.Rename
import WebTrim.Proofs.Literal.Size
import WebTrim.Proofs.Markup.EscapedTag
import WebTrim.Proofs.Markup.Tag
import WebTrim.Proofs.Naming.Allocation
import WebTrim.Proofs.Script.Literal
import WebTrim.Proofs.Script.Structure
import WebTrim.Proofs.Script.Token
import WebTrim.Proofs.Stylesheet.Escape
import WebTrim.Proofs.Stylesheet.Ident
import WebTrim.Proofs.Stylesheet.Rename
import WebTrim.Proofs.Stylesheet.Selector
import WebTrim.Proofs.Stylesheet.Size
import WebTrim.Proofs.Text.Scan
import WebTrim.Proofs.Text.Size
import WebTrim.ScopeId
import WebTrim.Script.Literal
import WebTrim.Settings.Load
import WebTrim.Shader.Minify
import WebTrim.Stylesheet.Rename
import WebTrim.Text.Case
import WebTrim.Text.Quoted
import WebTrim.Proofs.Corpus.Order
import WebTrim.Proofs.FileTree
import WebTrim.Proofs.Pass.Schedule
import WebTrim.Proofs.Optimize
import WebTrim.Proofs.Pass.Outcome
import WebTrim.Proofs.Pass.Accounting
import WebTrim.Proofs.Pass.Isolation
import WebTrim.Proofs.Script.Template
import WebTrim.Proofs.Shader.Characters
import WebTrim.Proofs.Shader.Declaration
import WebTrim.Proofs.Shader.Frame
import WebTrim.Proofs.Shader.Interface
import WebTrim.Proofs.Shader.Rename
import WebTrim.Proofs.Shader.Token
import WebTrim.Proofs.Naming.Greedy
import WebTrim.Proofs.Naming.Termination
import WebTrim.Proofs.Script.Nesting
import WebTrim.Proofs.Corpus.PartialSelector
import WebTrim.Proofs.Corpus.PropertyOrigin
import WebTrim.Proofs.Calc.Grammar
import WebTrim.Proofs.Calc.Decimal
import WebTrim.Proofs.Calc.Literal
import WebTrim.Proofs.Calc.Call
import WebTrim.Proofs.Calc.Refold
import WebTrim.Proofs.Stylesheet.LeadingToken
import WebTrim.Proofs.Color.Fold
import WebTrim.Proofs.Stylesheet.Boundary
import WebTrim.Proofs.Stylesheet.Splice
import WebTrim.Proofs.Stylesheet.Part
import WebTrim.Proofs.Stylesheet.Recut
import WebTrim.Proofs.Shader.Boundary
import WebTrim.Proofs.Shader.Comment
import WebTrim.Proofs.Shader.Spacing
import WebTrim.Proofs.Shader.Line
import WebTrim.Proofs.Shader.Outline
import WebTrim.Proofs.Shader.Lookahead
import WebTrim.Proofs.Shader.Number
import WebTrim.Proofs.Stylesheet.CustomProperty
import WebTrim.Proofs.ScopeId
import WebTrim.Proofs.Markup.Value
import WebTrim.Proofs.Markup.Attribute
import WebTrim.Proofs.Markup.RenamedTag
import WebTrim.Proofs.Stylesheet.CodeRename
import WebTrim.Proofs.Stylesheet.RenameTokens

import HtmlTemplate.Text.Blank
import HtmlTemplate.Text.LineEnds
import HtmlTemplate.Text.LowerCase
import HtmlTemplate.Text.Quoted
import HtmlTemplate.Html.Reader
import HtmlTemplate.Tree.Markup
import HtmlTemplate.Tree.Source
import HtmlTemplate.Tree.Walk
import HtmlTemplate.Selector.Matching
import HtmlTemplate.Selector.Reader
import HtmlTemplate.Template.Dump
import HtmlTemplate.Template.Rendering
import HtmlTemplate.Document
import HtmlTemplate.View.Program
import HtmlTemplate.Proofs.AbsentValues
import HtmlTemplate.Proofs.Caching
import HtmlTemplate.Proofs.Guarded
import HtmlTemplate.Proofs.Logging
import HtmlTemplate.Proofs.Views
import HtmlTemplate.Proofs.Slots
import HtmlTemplate.Proofs.Covering
import HtmlTemplate.Proofs.Selecting
import HtmlTemplate.Proofs.Views.Failing
import HtmlTemplate.Proofs.Declarations.Origins
import HtmlTemplate.Proofs.Tree.Building
import HtmlTemplate.Proofs.Tree.Strays
import HtmlTemplate.Proofs.Tree.Offered
import HtmlTemplate.Proofs.Selecting.Nesting
import HtmlTemplate.Proofs.Selecting.Readable
import HtmlTemplate.Proofs.Selecting.Formulas
import HtmlTemplate.Proofs.Selecting.Written
import HtmlTemplate.Proofs.Selecting.Rereading
import HtmlTemplate.Proofs.Selecting.RoundTrip
import HtmlTemplate.Proofs.Selecting.Closing
import HtmlTemplate.Proofs.Selecting.Negation
import HtmlTemplate.Proofs.Views.Marks
import HtmlTemplate.Proofs.Views.Retracing
import HtmlTemplate.Proofs.Tree.Outlines
import HtmlTemplate.Proofs.Logging.Exchange
import HtmlTemplate.Proofs.Tree.Sources
import HtmlTemplate.Proofs.Contents
import HtmlTemplate.Proofs.Iterations
import HtmlTemplate.Document.Backed
import HtmlTemplate.Proofs.Attributes
import HtmlTemplate.Proofs.Failures
import HtmlTemplate.Proofs.Tree.Inside
import HtmlTemplate.Proofs.Views.Frames
import HtmlTemplate.Proofs.Selecting.Formulas.Grammar
import HtmlTemplate.Proofs.Selecting.Presence
import HtmlTemplate.Proofs.Words
import HtmlTemplate.Proofs.Tree.Noted
import HtmlTemplate.Proofs.Selecting.AttributeForms
import HtmlTemplate.Proofs.LowerCase
import HtmlTemplate.Proofs.Selecting.IgnoringCase
import HtmlTemplate.Proofs.Selecting.Boundary
import HtmlTemplate.Proofs.Declarations.InOrder
import HtmlTemplate.Proofs.Selecting.Formulas.Values
import HtmlTemplate.Proofs.Selecting.Positions
import HtmlTemplate.Proofs.MissingValues
import HtmlTemplate.Proofs.Passes.NormalForm
import HtmlTemplate.Proofs.Escaping.Undoing
import HtmlTemplate.Proofs.Selecting.Locating
import HtmlTemplate.Proofs.Html.Places
import HtmlTemplate.Proofs.Html.Syntax
import HtmlTemplate.Proofs.Html.Readable
import HtmlTemplate.Proofs.Html.Written
import HtmlTemplate.Proofs.Html.Trimmed
import HtmlTemplate.Proofs.Html.Tidy
import HtmlTemplate.Proofs.Html.Conforming
import HtmlTemplate.Proofs.Html.LineEnds
import HtmlTemplate.Proofs.Html.Lexing
import HtmlTemplate.Proofs.Html.Drafts
import HtmlTemplate.Proofs.Html.Kinds
import HtmlTemplate.Proofs.Html.Standing
import HtmlTemplate.Proofs.Html.Opening
import HtmlTemplate.Proofs.Html.StartTags
import HtmlTemplate.Proofs.Html.EndTags
import HtmlTemplate.Proofs.Html.Reading
import HtmlTemplate.Proofs.Html.Elements
import HtmlTemplate.Proofs.Html.Rereading
import HtmlTemplate.Proofs.Html.Fragments

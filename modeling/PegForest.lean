import PegForest.Arena
import PegForest.Context.Backrefs
import PegForest.Context.Basic
import PegForest.Event
import PegForest.Fault
import PegForest.Forest.Basic
import PegForest.Forest.Close
import PegForest.Forest.Promote
import PegForest.Forest.Recycle
import PegForest.Forest.Tree
import PegForest.Forest.Walk
import PegForest.Input.Atom
import PegForest.Input.AtomClass
import PegForest.Input.Comparator
import PegForest.Input.Line
import PegForest.Input.Range
import PegForest.Input.Span
import PegForest.Input.Window
import PegForest.Language.Calculator.Basic
import PegForest.Language.Calculator.Evaluate
import PegForest.Language.Calculator.Expression
import PegForest.Language.Calculator.Render
import PegForest.Language.Calculator.Token
import PegForest.Language.Json.Grammar
import PegForest.Language.Json.Unescape
import PegForest.Language.Json.Value
import PegForest.Language.LongString
import PegForest.Language.NestedList
import PegForest.Matcher.Action
import PegForest.Matcher.Basic
import PegForest.Matcher.Eval
import PegForest.Matcher.Loop
import PegForest.Matcher.OnSpan
import PegForest.Matcher.Valid
import PegForest.Number.Binary64
import PegForest.Number.Decimal
import PegForest.Parser.Basic
import PegForest.Parser.Error
import PegForest.Text.Ascii
import PegForest.Text.Hidden
import PegForest.Text.Literal
import PegForest.Text.Utf8
import PegForest.Proofs.Arena.Stack
import PegForest.Proofs.Arena.Run
import PegForest.Proofs.Arena.Image
import PegForest.Proofs.Forest.Layout
import PegForest.Proofs.Forest.Represent
import PegForest.Proofs.Forest.Close
import PegForest.Proofs.Forest.Promote
import PegForest.Proofs.Forest.Recycle
import PegForest.Proofs.Forest.Cover
import PegForest.Proofs.Forest.WellFormed
import PegForest.Proofs.Forest.Walk
import PegForest.Proofs.Forest.Preorder
import PegForest.Proofs.Forest.Promotion
import PegForest.Proofs.Forest.Displace
import PegForest.Proofs.Forest.Tally
import PegForest.Proofs.Context.Track
import PegForest.Proofs.Context.Misuse
import PegForest.Proofs.Context.Displace
import PegForest.Proofs.Context.Rewind
import PegForest.Proofs.Matcher.MapAtoms
import PegForest.Proofs.Matcher.Part
import PegForest.Proofs.Matcher.Consume
import PegForest.Proofs.Matcher.Call
import PegForest.Proofs.Text.Utf8
import PegForest.Proofs.Reading.Basic
import PegForest.Proofs.Reading.Advance
import PegForest.Proofs.Reading.Depth
import PegForest.Proofs.Reading.Likeness
import PegForest.Proofs.Reading.Erase
import PegForest.Proofs.Reading.Blind
import PegForest.Proofs.Reading.Repeat
import PegForest.Proofs.Reading.Recall
import PegForest.Proofs.Reading.Realize
import PegForest.Proofs.Reading.Text
import PegForest.Proofs.Reading.Grow
import PegForest.Proofs.Reading.Search
import PegForest.Proofs.Reading.Delimit
import PegForest.Proofs.Reading.Word
import PegForest.Proofs.Action.Ahead
import PegForest.Proofs.Action.Respect
import PegForest.Proofs.Action.Round
import PegForest.Proofs.Action.Probe
import PegForest.Proofs.Action.Regroup
import PegForest.Proofs.Action.Spare
import PegForest.Proofs.Session
import PegForest.Proofs.Session.Replay
import PegForest.Proofs.Session.Traversal
import PegForest.Proofs.Session.Rewind
import PegForest.Proofs.Session.Tally
import PegForest.Proofs.Refinement
import PegForest.Proofs.Session.Answer
import PegForest.Proofs.Isolation
import PegForest.Proofs.Erasure
import PegForest.Proofs.SpanContract
import PegForest.Proofs.Delimited
import PegForest.Proofs.Repetition
import PegForest.Proofs.Regrouping
import PegForest.Proofs.Terminator
import PegForest.Proofs.Backreference
import PegForest.Proofs.Caseless
import PegForest.Proofs.Termination
import PegForest.Proofs.PositionIndependence
import PegForest.Proofs.FurthestFailure
import PegForest.Proofs.LineColumn
import PegForest.Proofs.Json.Scanner
import PegForest.Proofs.Json.Padding
import PegForest.Proofs.Json.Scan
import PegForest.Proofs.Json.Recognize
import PegForest.Proofs.Json.Decode
import PegForest.Proofs.Json.Accept
import PegForest.Proofs.Json.Contents
import PegForest.Proofs.Json.Escape
import PegForest.Proofs.Json.Numeral
import PegForest.Proofs.Json.Document
import PegForest.Proofs.Json.Shown
import PegForest.Proofs.Json.Growth
import PegForest.Proofs.Json.Denote
import PegForest.Proofs.NestedList.Phrase
import PegForest.Proofs.NestedList.Prefix
import PegForest.Proofs.NestedList.Recognize
import PegForest.Proofs.NestedList.Outline
import PegForest.Proofs.NestedList.Write
import PegForest.Proofs.NestedList.RoundTrip
import PegForest.Proofs.NestedList.FirstError
import PegForest.Proofs.LongString
import PegForest.Proofs.LongStrings
import PegForest.Proofs.Calculator.Phrase
import PegForest.Proofs.Calculator.Take
import PegForest.Proofs.Calculator.Follow
import PegForest.Proofs.Calculator.Write
import PegForest.Proofs.Calculator.Lex
import PegForest.Proofs.Calculator.Parse
import PegForest.Proofs.Calculator.Tokenize
import PegForest.Proofs.Calculator.Locate
import PegForest.Proofs.Calculator.Value
import PegForest.Proofs.Calculator.Evaluate
import PegForest.Proofs.Calculator.History
import PegForest.Proofs.Reuse

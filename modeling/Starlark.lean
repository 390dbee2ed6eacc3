import Starlark.Main
import Starlark.Proofs.Diagnostic.Color
import Starlark.Proofs.Grammar.ArgumentOrder
import Starlark.Proofs.Grammar.Defaults
import Starlark.Proofs.Grammar.EscapePlaces
import Starlark.Proofs.Literal.ShortStrings
import Starlark.Proofs.Parser.Accepts
import Starlark.Proofs.Parser.Earliest
import Starlark.Proofs.Resolve.Collection
import Starlark.Proofs.Resolve.Reached
import Starlark.Proofs.Resolve.Targets
import Starlark.Proofs.Scope.Refinement
import Starlark.Proofs.Session.Acceptance
import Starlark.Proofs.Session.Conflicts
import Starlark.Proofs.Session.Escapes
import Starlark.Proofs.Session.Independence
import Starlark.Proofs.Session.Lexical
import Starlark.Proofs.Session.LoadOrder
import Starlark.Proofs.Session.Loops
import Starlark.Proofs.Session.Predeclared
import Starlark.Proofs.Session.Steps
import Starlark.Proofs.Session.Suggestions
import Starlark.Proofs.Session.Switches
import Starlark.Proofs.Session.Tagged
import Starlark.Proofs.Session.UnknownFlags
import Starlark.Proofs.Syntax.BlankLines
import Starlark.Proofs.Syntax.Blocks
import Starlark.Proofs.Syntax.Invariants
import Starlark.Proofs.Syntax.LeafTexts
import Starlark.Proofs.Syntax.TooLong

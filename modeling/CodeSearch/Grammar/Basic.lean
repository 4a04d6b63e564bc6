import CodeSearch.Syntax.Attributes
import CodeSearch.Syntax.Concrete
import CodeSearch.Syntax.NodeKind
import CodeSearch.Text.Blank
import CodeSearch.Text.Split

/-! # Grammars

What the program has to know of a language's concrete trees: the normalized kind of a node, its
attributes, and the names that a method body has for its receiver. Names are read off the quoted
literals, type expressions and qualified paths of a source text.
-/

namespace CodeSearch

namespace Text

/-- The text of a string literal without its delimiters. -/
def unquote (s : String) : String :=
  trimOf (fun c => c == '"' || c == '\'' || c == '`') s

/-- The name in a type expression, without reference marks before it and arguments behind it. -/
def baseTypeName (s : String) : String :=
  let bare := trim (trimStartOf (fun c => c == '*' || c == '&') s)
  let bare := (stripStart? bare "mut ").getD bare
  let isOpening (c : Char) := c == '<' || c == '[' || c == '('
  trim (String.ofList (bare.toList.takeWhile (!isOpening ·)))

/-- The last piece of a dotted or scoped name that is not empty, or the text itself. -/
def lastSegment (s : String) : String :=
  let pieces := splitWhere (fun c => c == '.' || c == ':' || c == '/') s.toList
  match (pieces.filter (!·.isEmpty)).getLast? with
  | some piece => String.ofList piece
  | none => s

end Text

open Syntax

/-- How the concrete trees of one language are read. -/
structure Grammar where
  /-- Normalized kind of a node type, where that depends on nothing else. -/
  kindOf : String → NodeKind
  classify : (source : String) → Site → NodeKind
  annotate : (source : String) → Site → NodeKind → Attributes
  /-- Names of the receiver inside a method. -/
  selfNames : List String

namespace Grammar

/-- What a call node calls, and the text of the receiver if there is one. -/
abbrev Callee := String × Option String

/-- Attributes with only a name, taken from a field. -/
def named (source : String) (t : Concrete) (field : String) : Attributes :=
  Attributes.empty.set .name (t.fieldText source field)

def member (source : String) (t : Concrete) (nameField receiverField : String) : Attributes :=
  (named source t nameField).set .receiver (t.fieldText source receiverField)

end Grammar

end CodeSearch

import CodeSearch.Toml.Scalar
import CodeSearch.Toml.Table

/-! # Reading TOML

A document is a sequence of lines: headers, which say to which table the lines below belong, and
keys with values. Values are nested to a bounded depth. Every loop goes on only with a shorter
text.
-/

namespace CodeSearch.Toml

def skipBlank (cs : List Char) : List Char :=
  cs.dropWhile isBlank

/-- Drop blank characters, line ends and comments. -/
def skipLines (inComment : Bool) : List Char → List Char
  | '\r' :: '\n' :: cs => skipLines false cs
  | c :: cs =>
    if c == '\n' then skipLines false cs
    else if inComment then if isPlain c then skipLines true cs else c :: cs
    else if isBlank c then skipLines false cs
    else if c == '#' then skipLines true cs
    else c :: cs
  | [] => []

/-- The end of a line, behind which a comment may stand. -/
def lineEnd? (cs : List Char) : Option (List Char) :=
  let rest :=
    match skipBlank cs with
    | '#' :: comment => comment.dropWhile isPlain
    | rest => rest
  if rest.isEmpty then some [] else newline? rest

/-! ## Keys -/

/-- Whether a key without quotes may hold the character. -/
def isKeyChar (c : Char) : Bool :=
  c.isAlphanum || c == '_' || c == '-'

def keyPart (cs : List Char) : Option (String × List Char) :=
  match cs with
  | '"' :: rest => basic [] rest
  | '\'' :: rest => literal rest
  | _ =>
    let name := cs.takeWhile isKeyChar
    if name.isEmpty then none else some (String.ofList name, cs.dropWhile isKeyChar)

/-- A key: parts with dots between them, and the blank characters around it. -/
def key (cs : List Char) : Option (List String × List Char) := do
  let (first, rest) ← keyPart (skipBlank cs)
  match skipBlank rest with
  | '.' :: after =>
    if _h : after.length < cs.length then do
      let (more, rest) ← key after
      pure (first :: more, rest)
    else none
  | after => pure ([first], after)
termination_by cs.length

/-! ## Values -/

/-- The rest of an array. -/
def items (value : Reader Json) (cs : List Char) : Option (List Json × List Char) :=
  match skipLines false cs with
  | ']' :: rest => some ([], rest)
  | start => do
    let (v, rest) ← value start
    match skipLines false rest with
    | ']' :: rest => pure ([v], rest)
    | ',' :: after =>
      if _h : after.length < cs.length then do
        let (more, rest) ← items value after
        pure (v :: more, rest)
      else none
    | _ => none
termination_by cs.length

def pair (value : Reader Json) (cs : List Char) :
    Option ((List String × Json) × List Char) := do
  let (path, rest) ← key cs
  match rest with
  | '=' :: rest => do
    let (v, rest) ← value (skipBlank rest)
    pure ((path, v), rest)
  | _ => none

/-- The rest of a table in one line, which has at least one member. -/
def pairs (value : Reader Json) (cs : List Char) :
    Option (List (List String × Json) × List Char) := do
  let (first, rest) ← pair value cs
  match skipBlank rest with
  | '\x7d' :: rest => pure ([first], rest)
  | ',' :: after =>
    if _h : after.length < cs.length then do
      let (more, rest) ← pairs value after
      pure (first :: more, rest)
    else none
  | _ => none
termination_by cs.length

/-- Greatest depth to which values are nested. -/
def maxDepth : Nat := 80

def value : (depth : Nat) → Reader Json
  | 0, _ => none
  | depth + 1, cs =>
    match cs with
    | '[' :: rest => do
      let (vs, rest) ← items (value depth) rest
      pure (.arr vs, rest)
    | '\x7b' :: rest =>
      match skipBlank rest with
      | '\x7d' :: rest => some (.obj [], rest)
      | start => do
        let (members, rest) ← pairs (value depth) start
        let table ← members.foldlM (fun (ms : Members) (path, v) => ms.assign v path) []
        pure (table.toJson, rest)
    | '"' :: _ | '\'' :: _ => (string cs).map fun (s, rest) => (.str s, rest)
    | _ => word cs

/-! ## Documents -/

/-- What has been read of a document: its root table, and the table of the last header. -/
structure Document where
  root : Members := []
  table : List String := []

namespace Document

/-- Read a line that is not empty, up to its end. -/
def line (d : Document) (cs : List Char) : Option (Document × List Char) :=
  match cs with
  | '[' :: '[' :: rest => do
    let (path, rest) ← key rest
    match rest with
    | ']' :: ']' :: rest => do pure (⟨← d.root.append path, path⟩, rest)
    | _ => none
  | '[' :: rest => do
    let (path, rest) ← key rest
    match rest with
    | ']' :: rest => do pure (⟨← d.root.define path, path⟩, rest)
    | _ => none
  | _ => do
    let ((path, v), rest) ← pair (value maxDepth) cs
    pure ({ d with root := ← d.root.assignIn v path d.table }, rest)

def lines (d : Document) (cs : List Char) : Option Document :=
  match skipLines false cs with
  | [] => some d
  | start => do
    let (d, rest) ← d.line start
    let rest ← lineEnd? rest
    if rest.isEmpty then pure d
    else if _h : rest.length < cs.length then lines d rest
    else none
termination_by cs.length

end Document

/-- Read a document. -/
def ofText? (s : String) : Option Json :=
  let cs :=
    match s.toList with
    | '\ufeff' :: cs => cs
    | cs => cs
  (Document.lines {} cs).map fun d => d.root.toJson

end CodeSearch.Toml

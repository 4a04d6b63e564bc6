import CodeSearch.Digest.Blake3
import CodeSearch.Regular

/-! # Globs

A glob describes paths: `?` stands for one byte, `*` for any bytes, `**` between separators for
any number of components, brackets for one byte of a class, and braces for alternatives. A
backslash takes the special meaning from the next character.
-/

namespace CodeSearch

/-- Why a text is no glob. -/
inductive GlobError where
  | unclosedClass
  | invalidRange (first last : Char)
  | unopenedAlternates
  | unclosedAlternates
  | danglingEscape
  deriving Repr, DecidableEq

namespace GlobError

def message : GlobError → String
  | unclosedClass => "unclosed character class; missing ']'"
  | invalidRange first last => s!"invalid range; '{first}' > '{last}'"
  | unopenedAlternates =>
    "unopened alternate group; missing '\x7b' (maybe escape '\x7d' with '[\x7d]'?)"
  | unclosedAlternates =>
    "unclosed alternate group; missing '\x7d' (maybe escape '\x7b' with '[\x7b]'?)"
  | danglingEscape => "dangling '\\'"

end GlobError

inductive GlobToken where
  | literal (c : Char)
  | anyByte
  | anyBytes
  /-- Any number of components at the start. -/
  | leadingComponents
  /-- Any number of components at the end. -/
  | trailingComponents
  /-- Any number of components in the middle. -/
  | innerComponents
  | byteClass (negated : Bool) (ranges : List (Char × Char))
  | alternates (branches : List (List GlobToken))
  deriving Repr, Inhabited

namespace Glob

/-- Pieces in reverse order. -/
abbrev Branch := List GlobToken

/-- A group of alternatives that is still open: the branches that are complete, in reverse, and
    the branch around the group. -/
structure Group where
  done : List Branch
  outer : Branch
  deriving Repr, Inhabited

/-- What has been read so far: the open groups, innermost first, and the branch at hand. -/
structure Reading where
  groups : List Group := []
  branch : Branch := []
  deriving Repr, Inhabited

namespace Reading

def push (r : Reading) (t : GlobToken) : Reading :=
  { r with branch := t :: r.branch }

def openGroup (r : Reading) : Reading :=
  ⟨⟨[], r.branch⟩ :: r.groups, []⟩

/-- End the innermost group. -/
def closeGroup? (r : Reading) : Except GlobError Reading :=
  match r.groups with
  | [] => .error .unopenedAlternates
  | g :: groups =>
    let branches := (r.branch :: g.done).reverse.map List.reverse
    .ok ⟨groups, .alternates branches :: g.outer⟩

/-- A comma begins the next branch of a group, and stands for itself outside of groups. -/
def comma (r : Reading) : Reading :=
  match r.groups with
  | [] => r.push (.literal ',')
  | g :: groups => ⟨{ g with done := r.branch :: g.done } :: groups, []⟩

end Reading

def isSeparator (c : Char) : Bool :=
  c == '/'

/-- Read a class behind its opening bracket and its negation mark. -/
def readClass (isFirst inRange : Bool) (ranges : List (Char × Char)) :
    List Char → Except GlobError (List (Char × Char) × List Char)
  | [] => .error .unclosedClass
  | c :: cs =>
    if c == ']' && !isFirst then
      .ok ((if inRange then ('-', '-') :: ranges else ranges).reverse, cs)
    else if c == '-' && !isFirst && !inRange then readClass false true ranges cs
    else
      match inRange, ranges with
      | true, (first, _) :: rest =>
        if c < first then .error (.invalidRange first c)
        else readClass false false ((first, c) :: rest) cs
      | _, _ => readClass false false ((c, c) :: ranges) cs

theorem readClass_length {isFirst inRange : Bool} {ranges : List (Char × Char)} {cs : List Char}
    {found : List (Char × Char)} {rest : List Char}
    (h : readClass isFirst inRange ranges cs = .ok (found, rest)) : rest.length < cs.length := by
  induction cs generalizing isFirst inRange ranges with
  | nil => simp [readClass] at h
  | cons c cs ih =>
    unfold readClass at h
    split at h
    · simp only [Except.ok.injEq, Prod.mk.injEq] at h
      simp [← h.2]
    · split at h
      · exact Nat.lt_succ_of_lt (ih h)
      · split at h
        · split at h
          · simp at h
          · exact Nat.lt_succ_of_lt (ih h)
        · exact Nat.lt_succ_of_lt (ih h)

/-- Whether a class is negated, and what stands behind the mark for that. -/
def classStart : List Char → Bool × List Char
  | '!' :: body => (true, body)
  | '^' :: body => (true, body)
  | body => (false, body)

theorem classStart_length (cs : List Char) : (classStart cs).2.length ≤ cs.length := by
  unfold classStart
  split <;> simp

/-- What two stars mean behind `before`, and whether they take the separator behind them with
    them. They stand for components only where separators, ends or the marks of a group are on
    both sides. -/
def doubleStar (r : Reading) (before : Option Char) (next : Option Char) : Reading × Bool :=
  let plain := ((r.push .anyBytes).push .anyBytes, false)
  let endsHere := next.all isSeparator
  if r.branch.isEmpty then
    if endsHere then (r.push .leadingComponents, true) else plain
  else
    let inGroup := !r.groups.isEmpty
    let afterMark := inGroup && (before == some ',' || before == some '\x7b')
    if !(before.any isSeparator) && !afterMark then plain
    else
      let atGroupEnd := inGroup && (next == some ',' || next == some '\x7d')
      if !endsHere && !atGroupEnd then plain
      else
        let takesNext := next.any isSeparator
        let meaning :=
          match r.branch with
          | .leadingComponents :: _ => GlobToken.leadingComponents
          | .trailingComponents :: _ => .trailingComponents
          | _ => if takesNext then .innerComponents else .trailingComponents
        ({ r with branch := meaning :: r.branch.drop 1 }, takesNext)

/-- Read the characters behind `before`. -/
def read (r : Reading) (before : Option Char) (cs : List Char) : Except GlobError Reading :=
  match cs with
  | [] => .ok r
  | '?' :: cs => read (r.push .anyByte) (some '?') cs
  | '*' :: '*' :: cs =>
    let (r, takesNext) := doubleStar r before cs.head?
    match takesNext, cs with
    | true, c :: cs => read r (some c) cs
    | _, cs => read r (some '*') cs
  | '*' :: cs => read (r.push .anyBytes) (some '*') cs
  | '[' :: cs =>
    match _h : readClass true false [] (classStart cs).2 with
    | .error e => .error e
    | .ok (ranges, rest) => read (r.push (.byteClass (classStart cs).1 ranges)) (some ']') rest
  | '\x7b' :: cs => read r.openGroup (some '\x7b') cs
  | '\x7d' :: cs =>
    match r.closeGroup? with
    | .error e => .error e
    | .ok r => read r (some '\x7d') cs
  | ',' :: cs => read r.comma (some ',') cs
  | ['\\'] => .error .danglingEscape
  | '\\' :: c :: cs => read (r.push (.literal c)) (some c) cs
  | c :: cs => read (r.push (.literal c)) (some c) cs
termination_by cs.length
decreasing_by
  all_goals simp only [List.length_cons]
  all_goals first
    | omega
    | (have h := readClass_length _h
       have := classStart_length cs
       omega)

end Glob

structure Glob where
  tokens : List GlobToken
  deriving Repr, Inhabited

namespace Glob

def ofText (s : String) : Except GlobError Glob :=
  match read {} none s.toList with
  | .error e => .error e
  | .ok r => if r.groups.isEmpty then .ok ⟨r.branch.reverse⟩ else .error .unclosedAlternates

def bytesOf (c : Char) : List UInt8 :=
  Digest.utf8 (String.singleton c)

/-- The bytes of a class. Only single bytes are matched, so a range of longer characters reaches
    from the last byte of the first to the first byte of the last, and the bytes around count
    alone. -/
def classHolds (ranges : List (Char × Char)) (b : UInt8) : Bool :=
  ranges.any fun (first, last) =>
    let low := bytesOf first
    let high := bytesOf last
    if first = last then low.contains b
    else
      low.dropLast.contains b || (low.getLastD 0 ≤ b && b ≤ high.headD 0) ||
        (high.drop 1).contains b

def isByte (c : Char) (b : UInt8) : Bool :=
  b.toNat == c.toNat

mutual

/-- The expression of a piece, or none for a group of nothing. -/
def expressionOf : GlobToken → Regular UInt8
  | .literal c => Regular.all ((bytesOf c).map fun byte => .one (· == byte))
  | .anyByte => .one fun _ => true
  | .anyBytes => .many (.one fun _ => true)
  | .leadingComponents =>
    .alt (Regular.optional (.one (isByte '/')))
      (.seq (.many (.one fun _ => true)) (.one (isByte '/')))
  | .trailingComponents => .seq (.one (isByte '/')) (.many (.one fun _ => true))
  | .innerComponents =>
    .alt (.one (isByte '/'))
      (.seq (.one (isByte '/')) (.seq (.many (.one fun _ => true)) (.one (isByte '/'))))
  | .byteClass negated ranges => .one fun b => classHolds ranges b != negated
  | .alternates branches =>
    match alternatives branches with
    | [] => .empty
    | found => Regular.any found

/-- The expression of pieces one after the other. -/
def expressionOfAll : List GlobToken → Regular UInt8
  | [] => .empty
  | t :: rest => .seq (expressionOf t) (expressionOfAll rest)

/-- The expressions of the branches that are not empty. -/
def alternatives : List (List GlobToken) → List (Regular UInt8)
  | [] => []
  | branch :: rest =>
    if writesNothing branch then alternatives rest
    else expressionOfAll branch :: alternatives rest

/-- Whether pieces stand for nothing: there are none but groups of nothing. -/
def writesNothing : List GlobToken → Bool
  | [] => true
  | .alternates branches :: rest => allWriteNothing branches && writesNothing rest
  | _ :: _ => false

def allWriteNothing : List (List GlobToken) → Bool
  | [] => true
  | branch :: rest => writesNothing branch && allWriteNothing rest

end

/-- The expression of a glob; two stars alone stand for everything. -/
def expression (g : Glob) : Regular UInt8 :=
  match g.tokens with
  | [.leadingComponents] => .many (.one fun _ => true)
  | tokens => expressionOfAll tokens

def accepts (g : Glob) (path : String) : Bool :=
  g.expression.matchesAll (Digest.utf8 path)

end Glob

end CodeSearch

import CodeSearch.Filter.Basic
import CodeSearch.Regular

/-! # Questions in free text

A question is put into a category by the phrases in it. Its words give the key terms, the
expansions of abbreviations, and filters that it implies.
-/

namespace CodeSearch

/-- What a question asks for. -/
inductive QueryCategory where
  /-- Where something is defined. -/
  | findDefinition
  /-- Where something is used. -/
  | findUsage
  /-- What follows a design pattern. -/
  | findPattern
  /-- How something works. -/
  | explain
  | general
  deriving Repr, DecidableEq, Inhabited

namespace QueryCategory

def name : QueryCategory → String
  | findDefinition => "find_definition"
  | findUsage => "find_usage"
  | findPattern => "find_pattern"
  | explain => "explain"
  | general => "general"

def ofName? (s : String) : Option QueryCategory :=
  [findDefinition, findUsage, findPattern, explain, general].find? (·.name == s)

end QueryCategory

/-- Paths and names of symbols that results are drawn towards. -/
structure ContextHints where
  paths : List String := []
  symbols : List String := []
  deriving Repr, DecidableEq, Inhabited

namespace ContextHints

/-- Greatest number of paths, and of symbols. -/
def maxHints : Nat := 16

/-- The first distinct entries, as many as there may be. -/
def firstDistinct (xs : List String) : List String :=
  xs.eraseDups.take maxHints

/-- Hints from what was touched last, the latest first. -/
def ofRecent (paths symbols : List String) : ContextHints :=
  ⟨firstDistinct paths, firstDistinct symbols⟩

def isEmpty (h : ContextHints) : Bool :=
  h.paths.isEmpty && h.symbols.isEmpty

end ContextHints

/-- A question that was understood. -/
structure QueryIntent where
  /-- The question as it was asked. -/
  text : String
  category : QueryCategory
  /-- Filters that the question implies. -/
  filters : List Filter
  /-- The question with abbreviations expanded. -/
  expanded : String
  /-- Key terms in lower case. -/
  terms : List String
  hints : ContextHints := {}
  deriving Repr, Inhabited

/-- Why a question was refused. -/
inductive QueryError where
  | emptyQuery
  | invalidPattern (detail : String)
  deriving Repr, DecidableEq

namespace QueryError

def kind : QueryError → String
  | emptyQuery => "empty_query"
  | invalidPattern _ => "invalid_pattern"

def message : QueryError → String
  | emptyQuery => "Empty query"
  | invalidPattern detail => s!"Invalid regex pattern: {detail}"

end QueryError

namespace Query

/-! ## Phrases -/

/-- Whether two characters agree when letter case is folded. The Kelvin sign is a k, and the long
    s an s. -/
def folds (c d : Char) : Bool :=
  d.toLower == c || (c == 'k' && d.toNat == 0x212a) || (c == 's' && d.toNat == 0x17f)

/-- A word in any letter case, without a look at what is around it. -/
def word (s : String) : Regular Char :=
  Regular.all (s.toList.map fun c => .one (folds c))

def oneOf (words : List String) : Regular Char :=
  Regular.any (words.map word)

/-- Blank characters, at least one. -/
def gap : Regular Char :=
  Regular.some (.one Text.isBlank)

def edge : Regular Char :=
  .between fun before next => before.any Text.isWordChar != next.any Text.isWordChar

def start : Regular Char :=
  .between fun before _ => before.isNone

/-- Characters other than line feeds, at least one. -/
def anything : Regular Char :=
  Regular.some (.one (· != '\n'))

def whereIs : Regular Char :=
  Regular.all [word "where", gap, oneOf ["is", "are"], gap, anything, gap]

/-- Phrases that ask where something is used. -/
def usagePhrases : Regular Char :=
  Regular.all [edge, Regular.any
    [Regular.all [whereIs, oneOf ["used", "called", "referenced", "invoked", "imported"]],
     Regular.all [Regular.any [oneOf ["usage", "usages", "uses", "caller", "callers", "reference",
        "references"], Regular.all [word "call", gap, oneOf ["site", "sites"]]],
      gap, oneOf ["of", "to", "for"]],
     Regular.all [oneOf ["who", "what"], gap, word "calls"],
     Regular.all [word "find", gap, Regular.optional (Regular.all [word "all", gap]),
      oneOf ["usage", "usages", "callers", "references", "calls"]]], edge]

def patternPhrases : Regular Char :=
  Regular.any
    [Regular.all [edge, Regular.any
      [Regular.all [word "design", gap, oneOf ["pattern", "patterns"]],
       oneOf ["pattern", "patterns", "singletons", "factories", "builders", "observers",
        "strategies", "decorators", "adapters", "iterators", "visitors"]], edge],
     Regular.all [edge, oneOf (Pattern.all.map (·.name)), gap,
      oneOf ["class", "classes", "implementation", "implementations"], edge]]

/-- Phrases that ask how something works, at the start of the question. -/
def explainPhrases : Regular Char :=
  Regular.all [start, .many (.one Text.isBlank), Regular.any
    [oneOf ["explain", "describe"],
     Regular.all [word "how", gap, oneOf ["does", "do", "is", "are"]],
     Regular.all [word "what", gap, oneOf ["does", "do"]],
     Regular.all [word "why", gap, oneOf ["does", "do", "is"]],
     Regular.all [word "tell", gap, word "me", gap, oneOf ["about", "how"]],
     Regular.all [word "show", gap, word "me", gap, word "how"]], edge]

/-- Phrases that ask where something is defined. -/
def definitionPhrases : Regular Char :=
  Regular.all [edge, Regular.any
    [Regular.all [whereIs, oneOf ["defined", "declared", "implemented"]],
     Regular.all [word "definition", gap, word "of"],
     word "defined",
     Regular.all [word "declaration", gap, word "of"],
     Regular.all [word "find", gap, Regular.optional (Regular.all [word "the", gap]),
      oneOf ["function", "class", "method", "struct", "type", "trait", "interface", "enum"]],
     Regular.all [oneOf ["function", "class", "method", "struct", "def", "fn"], gap,
      oneOf ["named", "called"]],
     Regular.all [word "go", gap, word "to"],
     word "locate"], edge]

/-- The first category whose phrases occur. -/
def categoryOf (text : List Char) : QueryCategory :=
  if usagePhrases.occursIn text then .findUsage
  else if patternPhrases.occursIn text then .findPattern
  else if explainPhrases.occursIn text then .explain
  else if definitionPhrases.occursIn text then .findDefinition
  else .general

/-! ## Words -/

/-- A piece of a question: a name, or a character between names. -/
inductive Segment where
  | name (s : String)
  | other (c : Char)
  deriving Repr, DecidableEq

def isNameStart (c : Char) : Bool :=
  (c.isAlpha && c.toNat < 128) || c == '_'

def isNameChar (c : Char) : Bool :=
  isNameStart c || c.isDigit

/-- Where the scan stands: between names, in a name, or behind a name and a separator. Characters
    are collected in reverse. -/
inductive ScanState where
  | between
  | inName (seen : List Char)
  | afterDot (seen : List Char)
  | afterColon (seen : List Char)
  | afterColons (seen : List Char)
  deriving Repr

/-- The pieces that are complete when a name does not go on. -/
def ScanState.flush : ScanState → List Segment
  | between => []
  | inName seen => [.name (String.ofList seen.reverse)]
  | afterDot seen => [.name (String.ofList seen.reverse), .other '.']
  | afterColon seen => [.name (String.ofList seen.reverse), .other ':']
  | afterColons seen => [.name (String.ofList seen.reverse), .other ':', .other ':']

/-- The state after a character that does not go on with a name, and the piece it may be. -/
def ScanState.restart (c : Char) : ScanState × List Segment :=
  if isNameStart c then (inName [c], []) else (between, [.other c])

/-- The state after a character, and the pieces that are complete. Names are joined by a dot or
    two colons when a name follows. -/
def ScanState.step (s : ScanState) (c : Char) : ScanState × List Segment :=
  let broken :=
    let (next, pieces) := restart c
    (next, s.flush ++ pieces)
  match s with
  | between => restart c
  | inName seen =>
    if isNameChar c then (inName (c :: seen), [])
    else if c == '.' then (afterDot seen, [])
    else if c == ':' then (afterColon seen, [])
    else broken
  | afterDot seen => if isNameStart c then (inName (c :: '.' :: seen), []) else broken
  | afterColon seen => if c == ':' then (afterColons seen, []) else broken
  | afterColons seen => if isNameStart c then (inName (c :: ':' :: ':' :: seen), []) else broken

/-- The pieces of a text. -/
def segments (s : ScanState) : List Char → List Segment
  | [] => s.flush
  | c :: cs =>
    let (next, pieces) := s.step c
    pieces ++ segments next cs

/-- The names of a text in lower case. -/
def words (text : List Char) : List String :=
  (segments .between text).filterMap fun piece => match piece with
    | .name s => some (Text.lower s)
    | .other _ => none

/-- What an abbreviation stands for. -/
def expansion? (word : String) : Option String :=
  match word with
  | "fn" | "func" => some "function"
  | "cfg" | "conf" => some "config"
  | "auth" => some "authentication"
  | "db" => some "database"
  | "init" => some "initialize"
  | "impl" => some "implementation"
  | "err" => some "error"
  | "msg" => some "message"
  | "req" => some "request"
  | "resp" => some "response"
  | "ctx" => some "context"
  | "util" => some "utility"
  | "utils" => some "utilities"
  | "params" => some "parameters"
  | "args" => some "arguments"
  | "str" => some "string"
  | "dir" => some "directory"
  | "env" => some "environment"
  | "repo" => some "repository"
  | "tx" => some "transaction"
  | "conn" => some "connection"
  | _ => none

/-- Words that say nothing about what is looked for. -/
def stopWords : List String :=
  ["a", "all", "an", "and", "any", "are", "as", "at", "be", "by", "call", "called", "calls",
   "callers", "code", "declared", "def", "defined", "definition", "describe", "does", "do",
   "explain", "find", "for", "from", "function", "functions", "get", "go", "how", "implemented",
   "implementation", "implementations", "in", "invoked", "is", "it", "locate", "me", "method",
   "methods", "of", "on", "or", "pattern", "patterns", "class", "classes", "reference",
   "references", "referenced", "show", "site", "sites", "tell", "that", "the", "this", "to", "use",
   "used", "usage", "usages", "uses", "what", "where", "which", "who", "why", "with", "work",
   "works", "design"]

def languageWord? (word : String) : Option Language :=
  match word with
  | "python" | "py" => some .python
  | "rust" => some .rust
  | "javascript" | "js" => some .javascript
  | "typescript" | "ts" => some .typescript
  | "golang" => some .go
  | _ => none

/-- The first language that the words name. The verb go is a language only behind the word in. -/
def languageOf? (previous : Option String) : List String → Option Language
  | [] => none
  | w :: rest =>
    match languageWord? w with
    | some l => some l
    | none =>
      if w == "go" && previous == some "in" then some .go else languageOf? (some w) rest

def kindWord? (word : String) : Option SymbolKind :=
  match word with
  | "class" | "classes" | "struct" | "structs" | "interface" | "trait" | "enum" => some .type
  | "function" | "functions" | "method" | "methods" | "func" | "fn" | "def" => some .function
  | _ => none

/-- A word without the ending of the plural. -/
def singular (word : String) : String :=
  match Text.stripEnd? word "ies" with
  | some stem => stem ++ "y"
  | none =>
    if 3 < word.utf8ByteSize && Text.endsWith word "s" && !Text.endsWith word "ss" then
      (Text.stripEnd? word "s").getD word
    else word

/-- The word as qualified names are written, with two colons for a dot. -/
def qualified (word : String) : String :=
  String.ofList (word.toList.flatMap fun c => if c == '.' then [':', ':'] else [c])

/-- Add a term that is not there yet. -/
def addTerm (terms : List String) (term : String) : List String :=
  if terms.contains term then terms else terms ++ [term]

/-- Words of one letter, stop words and names of languages are no terms. -/
def isTerm (word : String) : Bool :=
  2 ≤ word.utf8ByteSize && !stopWords.contains word && (languageWord? word).isNone

/-- The key terms: the words that are terms, each with what it is short for. -/
def keyTerms (words : List String) : List String :=
  words.foldl (fun terms w =>
    let w := qualified w
    if isTerm w then
      match expansion? w with
      | some long => addTerm (addTerm terms w) long
      | none => addTerm terms w
    else terms) []

/-- The text with what abbreviations stand for behind them. -/
def expand (text : List Char) : String :=
  String.join ((segments .between text).map fun piece => match piece with
    | .other c => String.singleton c
    | .name s =>
      match expansion? (Text.lower s) with
      | some long => s ++ " " ++ long
      | none => s)

/-- The filters that a question of a category implies by its words. -/
def impliedFilters (category : QueryCategory) (words : List String) : List Filter :=
  let language := (languageOf? none words).map Filter.language
  let more :=
    match category with
    | .findDefinition => (words.findSome? kindWord?).map Filter.kind
    | .findPattern => (words.findSome? fun w => Pattern.ofText? (singular w)).map Filter.patternType
    | _ => none
  language.toList ++ more.toList

/-- Understand a question, with what was touched last as its context. -/
def classify (text : String) (hints : ContextHints) : Except QueryError QueryIntent :=
  let text := Text.trim text
  if text.isEmpty then .error .emptyQuery
  else
    let cs := text.toList
    let category := categoryOf cs
    let ws := words cs
    .ok
      { text, category, filters := impliedFilters category ws
        expanded := expand cs, terms := keyTerms ws, hints }

end Query

end CodeSearch

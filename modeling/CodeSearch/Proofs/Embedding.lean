import CodeSearch.Embedding
import CodeSearch.Proofs.Text
import Mathlib.Data.List.Basic

/-! # Spellings of identifiers

An identifier of several words is spelled with underscores between the words, or with a capital at
the beginning of every word but the first. Both spellings have the words for their parts, and are
embedded alike: an underscore belongs to no word, and what stands before a capital is a small letter
or a digit, so that a new part begins there.
-/

namespace CodeSearch.Embedding

/-! ## Words and spellings -/

/-- A small letter of ASCII, or a digit. -/
def isInner (c : Char) : Bool :=
  c.isLower || c.isDigit

/-- A word: a small letter of ASCII, and at least one more or a digit behind it. -/
def IsWord (w : String) : Prop :=
  ∃ c rest, w.toList = c :: rest ∧ c.isLower = true ∧ rest ≠ [] ∧ ∀ d ∈ rest, isInner d = true

def capitalized (w : String) : String :=
  match w.toList with
  | [] => ""
  | c :: rest => String.ofList (c.toUpper :: rest)

/-- Words with underscores between them. -/
def snakeCase (words : List String) : String :=
  Text.join "_" words

/-- Words with a capital at the beginning of every one but the first. -/
def camelCase : List String → String
  | [] => ""
  | w :: words => w ++ String.join (words.map capitalized)

/-! ## Characters of words -/

section

variable {c : Char}

theorem ascii_of_isLower (small : c.isLower = true) : c.toNat < 128 := by
  have bounds : decide (c.val ≥ 'a'.val) = true ∧ decide (c.val ≤ 'z'.val) = true :=
    (Bool.and_eq_true _ _).to_iff.mp small
  have last := UInt32.le_iff_toNat_le.mp (of_decide_eq_true bounds.2)
  exact Nat.lt_of_le_of_lt last (by decide)

theorem ascii_of_isInner (inner : isInner c = true) : c.toNat < 128 := by
  rcases (Bool.or_eq_true _ _).to_iff.mp inner with small | digit
  · exact ascii_of_isLower small
  · simp only [Char.isDigit, Bool.and_eq_true, decide_eq_true_eq] at digit
    exact Nat.lt_of_le_of_lt (UInt32.le_iff_toNat_le.mp digit.2) (by decide)

/-- What a character inside a word is for the splitting of identifiers. -/
theorem isInner_spec (inner : isInner c = true) :
    Text.isAlphanumeric c = true ∧ Text.isUpper c = false ∧
      (Text.isLower c || c.isDigit) = true ∧ c.toLower = c := by
  have all : ∀ n < 128, isInner (Char.ofNat n) = true →
      Text.isAlphanumeric (Char.ofNat n) = true ∧ Text.isUpper (Char.ofNat n) = false ∧
        (Text.isLower (Char.ofNat n) || (Char.ofNat n).isDigit) = true ∧
        (Char.ofNat n).toLower = Char.ofNat n := by decide +kernel
  have one := all c.toNat (ascii_of_isInner inner)
  rw [Char.ofNat_toNat] at one
  exact one inner

/-- What the capital of a small letter is for the splitting of identifiers. -/
theorem toUpper_spec (small : c.isLower = true) :
    c.toUpper.toNat < 128 ∧ Text.isAlphanumeric c.toUpper = true ∧
      Text.isUpper c.toUpper = true ∧ c.toUpper.toLower = c := by
  have all : ∀ n < 128, (Char.ofNat n).isLower = true →
      (Char.ofNat n).toUpper.toNat < 128 ∧ Text.isAlphanumeric (Char.ofNat n).toUpper = true ∧
        Text.isUpper (Char.ofNat n).toUpper = true ∧
        (Char.ofNat n).toUpper.toLower = Char.ofNat n := by decide +kernel
  have one := all c.toNat (ascii_of_isLower small)
  rw [Char.ofNat_toNat] at one
  exact one small

end

section

variable {w : String}

theorem IsWord.inner (word : IsWord w) : ∀ c ∈ w.toList, isInner c = true := by
  obtain ⟨c, rest, letters, small, -, inner⟩ := word
  rw [letters]
  exact List.forall_mem_cons.mpr ⟨(Bool.or_eq_true _ _).to_iff.mpr (.inl small), inner⟩

theorem IsWord.ne_nil (word : IsWord w) : w.toList ≠ [] := by
  obtain ⟨c, rest, letters, -⟩ := word
  exact letters ▸ List.cons_ne_nil c rest

/-- A word with a capital is the capital, and something inside of a word behind it. -/
theorem IsWord.capitalized (word : IsWord w) :
    ∃ c rest, w.toList = c :: rest ∧ (capitalized w).toList = c.toUpper :: rest ∧
      c.isLower = true ∧ rest ≠ [] ∧ ∀ d ∈ rest, isInner d = true := by
  obtain ⟨c, rest, letters, small, some, inner⟩ := word
  refine ⟨c, rest, letters, ?_, small, some, inner⟩
  rw [Embedding.capitalized, letters, String.toList_ofList]

theorem IsWord.lower_eq (word : IsWord w) : Text.lower w = w :=
  Text.Lowered.lower_eq fun c inside =>
    have inner := word.inner c inside
    ⟨ascii_of_isInner inner, (isInner_spec inner).2.2.2⟩

theorem IsWord.lower_capitalized (word : IsWord w) :
    Text.lower (Embedding.capitalized w) = w := by
  obtain ⟨c, rest, letters, capital, small, -, inner⟩ := word.capitalized
  obtain ⟨ascii, -, -, lowered⟩ := toUpper_spec small
  have allAscii : Text.Ascii (c.toUpper :: rest) :=
    List.forall_mem_cons.mpr ⟨ascii, fun d inside => ascii_of_isInner (inner d inside)⟩
  have kept : rest.map Char.toLower = rest := by
    rw [List.map_congr_left fun d inside => (isInner_spec (inner d inside)).2.2.2, List.map_id']
  rw [Text.lower, capital, Text.lowerAfter_ascii [] allAscii, List.map_cons, lowered, kept,
    ← letters, String.ofList_toList]

/-- All characters of a word with a capital belong to one identifier. -/
theorem IsWord.alphanumeric_capitalized (word : IsWord w) :
    ∀ c ∈ (Embedding.capitalized w).toList, Text.isAlphanumeric c = true := by
  obtain ⟨c, rest, -, capital, small, -, inner⟩ := word.capitalized
  rw [capital]
  exact List.forall_mem_cons.mpr
    ⟨(toUpper_spec small).2.1, fun d inside => (isInner_spec (inner d inside)).1⟩

theorem IsWord.alphanumeric (word : IsWord w) :
    ∀ c ∈ w.toList, Text.isAlphanumeric c = true :=
  fun c inside => (isInner_spec (word.inner c inside)).1

end

/-! ## Parts -/

/-- What is inside of a word goes on with the part at hand, and ends with something small. -/
theorem humps_inner {cs : List Char} (inner : ∀ c ∈ cs, isInner c = true) (some : cs ≠ [])
    (current : List Char) (afterSmall : Bool) (rest : List Char) :
    humps current afterSmall (cs ++ rest) = humps (cs.reverse ++ current) true rest := by
  induction cs generalizing current afterSmall with
  | nil => exact absurd rfl some
  | cons c cs ih =>
      obtain ⟨first, others⟩ := List.forall_mem_cons.mp inner
      obtain ⟨-, notUpper, small, -⟩ := isInner_spec first
      have step : humps current afterSmall (c :: (cs ++ rest)) =
          humps (c :: current) true (cs ++ rest) := by
        simp [humps, notUpper, small]
      rw [List.cons_append, step]
      by_cases last : cs = []
      · rw [last]
        rfl
      · rw [ih others last, List.reverse_cons, List.append_assoc]
        rfl

theorem humps_word {w : String} (word : IsWord w) : humps [] false w.toList = [w.toList] := by
  have whole := humps_inner word.inner word.ne_nil [] false []
  rw [List.append_nil, List.append_nil] at whole
  have some : w.toList.reverse.isEmpty = false := by
    simpa using word.ne_nil
  rw [whole, humps, some, List.reverse_reverse]
  rfl

/-- Behind something small every word with a capital is a part of its own. -/
theorem humps_capitalized {words : List String} (each : ∀ w ∈ words, IsWord w)
    {current : List Char} (some : current ≠ []) :
    humps current true ((words.map capitalized).flatMap String.toList) =
      current.reverse :: (words.map capitalized).map String.toList := by
  induction words generalizing current with
  | nil => simp [humps, some]
  | cons w words ih =>
      obtain ⟨first, others⟩ := List.forall_mem_cons.mp each
      obtain ⟨c, rest, -, capital, small, more, inner⟩ := first.capitalized
      obtain ⟨-, -, upper, -⟩ := toUpper_spec small
      have step (cs : List Char) (flag : Bool) : humps current true (c.toUpper :: cs) =
          current.reverse ::
            humps [c.toUpper] (Text.isLower c.toUpper || c.toUpper.isDigit) cs := by
        simp [humps, upper, some]
      rw [List.map_cons, List.flatMap_cons, List.map_cons, capital, List.cons_append, step _ true,
        humps_inner inner more, ih others (by simp)]
      simp

/-- The identifiers of a text: what there is between characters that are no letters and no numbers.
    An empty text counts as one. -/
def identifiers (text : String) : List (List Char) :=
  Text.splitWhere (fun c => !Text.isAlphanumeric c) text.toList

/-- The parts of a text are those that its identifiers are divided into, in lower case. -/
theorem parts_of_divided {text : String} {pieces : List String}
    (divided : (identifiers text).flatMap (humps [] false) = pieces.map String.toList) :
    parts text = pieces.map Text.lower := by
  have divided : parts text = (pieces.map String.toList).map fun part =>
      Text.lower (String.ofList part) := congrArg (List.map _) divided
  rw [divided, List.map_map]
  exact List.map_congr_left fun piece _ => congrArg Text.lower String.ofList_toList

theorem identifiers_of_alphanumeric {text : String}
    (inside : ∀ c ∈ text.toList, Text.isAlphanumeric c = true) :
    identifiers text = [text.toList] := by
  rw [identifiers, Text.splitWhere_eq_splitOnP]
  exact List.splitOnP_eq_singleton fun c there => by rw [inside c there, Bool.not_true]

/-- An underscore ends an identifier. -/
theorem identifiers_append {first rest : String}
    (inside : ∀ c ∈ first.toList, Text.isAlphanumeric c = true) :
    identifiers (first ++ "_" ++ rest) = first.toList :: identifiers rest := by
  have text : (first ++ "_" ++ rest).toList = first.toList ++ '_' :: rest.toList := by
    simp [String.toList_append]
  have kept : ∀ c ∈ first.toList, (!Text.isAlphanumeric c) = false := fun c there => by
    rw [inside c there, Bool.not_true]
  rw [identifiers, identifiers, text, Text.splitWhere_eq_splitOnP, Text.splitWhere_eq_splitOnP]
  exact List.splitOnP_append_cons_of_forall_mem kept '_' rfl rest.toList

theorem identifiers_snakeCase {w : String} {words : List String}
    (each : ∀ v ∈ w :: words, IsWord v) :
    identifiers (snakeCase (w :: words)) = (w :: words).map String.toList := by
  induction words generalizing w with
  | nil =>
      obtain ⟨first, -⟩ := List.forall_mem_cons.mp each
      exact identifiers_of_alphanumeric first.alphanumeric
  | cons v words ih =>
      obtain ⟨first, others⟩ := List.forall_mem_cons.mp each
      exact (identifiers_append first.alphanumeric).trans (congrArg (w.toList :: ·) (ih others))

theorem toList_camelCase (w : String) (words : List String) :
    (camelCase (w :: words)).toList =
      w.toList ++ (words.map capitalized).flatMap String.toList := by
  rw [camelCase, String.toList_append, String.toList_join]

theorem identifiers_camelCase {w : String} {words : List String}
    (each : ∀ v ∈ w :: words, IsWord v) :
    identifiers (camelCase (w :: words)) = [(camelCase (w :: words)).toList] := by
  obtain ⟨first, others⟩ := List.forall_mem_cons.mp each
  refine identifiers_of_alphanumeric fun c inside => ?_
  rw [toList_camelCase] at inside
  rcases List.mem_append.mp inside with own | later
  · exact first.alphanumeric c own
  · simp only [List.mem_flatMap, List.mem_map, exists_exists_and_eq_and] at later
    obtain ⟨v, other, own⟩ := later
    exact (others v other).alphanumeric_capitalized c own

theorem parts_snakeCase {words : List String} (each : ∀ w ∈ words, IsWord w) :
    parts (snakeCase words) = words := by
  cases words with
  | nil => rfl
  | cons w words =>
      have divided : (identifiers (snakeCase (w :: words))).flatMap (humps [] false) =
          (w :: words).map String.toList := by
        rw [identifiers_snakeCase each, List.flatMap_map,
          List.flatMap_congr fun v inside => humps_word (each v inside), List.map_eq_flatMap]
      rw [parts_of_divided divided, List.map_congr_left fun v inside => (each v inside).lower_eq,
        List.map_id']

theorem parts_camelCase {words : List String} (each : ∀ w ∈ words, IsWord w) :
    parts (camelCase words) = words := by
  cases words with
  | nil => rfl
  | cons w words =>
      obtain ⟨first, others⟩ := List.forall_mem_cons.mp each
      have divided : (identifiers (camelCase (w :: words))).flatMap (humps [] false) =
          (w :: words.map capitalized).map String.toList := by
        rw [identifiers_camelCase each, List.flatMap_singleton, toList_camelCase,
          humps_inner first.inner first.ne_nil, List.append_nil,
          humps_capitalized others (by simpa using first.ne_nil), List.reverse_reverse]
        rfl
      have lowered : words.map (Text.lower ∘ capitalized) = words.map id :=
        List.map_congr_left fun v inside => (others v inside).lower_capitalized
      rw [parts_of_divided divided, List.map_cons, first.lower_eq, List.map_map, lowered,
        List.map_id]

/-! ## Vectors -/

/-- Only the parts of a text are embedded. -/
theorem embed_congr {s t : String} (same : parts s = parts t) (e : HashingEmbedder) :
    e.embed s = e.embed t := by
  simp only [HashingEmbedder.embed, features, same]

/-- The words of an identifier are its parts in either spelling, and so both spellings have the same
    vector. -/
theorem spellings_alike {words : List String} (each : ∀ w ∈ words, IsWord w) :
    parts (snakeCase words) = words ∧ parts (camelCase words) = words ∧
      ∀ e : HashingEmbedder, e.embed (snakeCase words) = e.embed (camelCase words) := by
  have snake := parts_snakeCase each
  have camel := parts_camelCase each
  exact ⟨snake, camel, embed_congr (snake.trans camel.symm)⟩

/-- Capitals behind a digit, and words that begin alike. -/
theorem get2HttpItems_alike :
    snakeCase ["get2", "http", "items"] = "get2_http_items" ∧
      camelCase ["get2", "http", "items"] = "get2HttpItems" ∧
      parts "get2_http_items" = ["get2", "http", "items"] ∧
      parts "get2HttpItems" = ["get2", "http", "items"] ∧
      ∀ e : HashingEmbedder, e.embed "get2_http_items" = e.embed "get2HttpItems" := by
  have each : ∀ w ∈ ["get2", "http", "items"], IsWord w := by
    simp only [List.forall_mem_cons]
    exact ⟨⟨'g', _, rfl, rfl, nofun, List.all_eq_true.mp rfl⟩,
      ⟨'h', _, rfl, rfl, nofun, List.all_eq_true.mp rfl⟩,
      ⟨'i', _, rfl, rfl, nofun, List.all_eq_true.mp rfl⟩, nofun⟩
  exact ⟨rfl, rfl, spellings_alike each⟩

end CodeSearch.Embedding

import CodeSearch.Filter.Reader
import CodeSearch.Proofs.Filter
import CodeSearch.Proofs.Text
import CodeSearch.Proofs.Time.Calendar
import CodeSearch.Proofs.Time.DateText

/-! # Ranges of dates

A range of two dates is read whichever side is left out, and lets pass what was modified on a day
of the range. What was modified in the last millisecond of the last day is left out, although it
belongs to the day: the upper bound stands at the beginning of that millisecond.
-/

namespace CodeSearch

open Time

namespace Time.Instant

/-- The instant lies in the last millisecond of its day, behind the beginning of it. -/
def InLastMilli (t : Instant) : Prop :=
  t.secondOfDay = 86399 ∧ 999000000 < t.nano

instance (t : Instant) : Decidable t.InLastMilli :=
  inferInstanceAs (Decidable (_ ∧ _))

section

variable {d : Date} {t : Instant}

theorem lt_iff {a b : Instant} :
    a.lt b = true ↔ a.second < b.second ∨ a.second = b.second ∧ a.nano < b.nano := by
  simp [lt]

theorem le_iff {a b : Instant} :
    a.le b = true ↔ a.second < b.second ∨ a.second = b.second ∧ a.nano ≤ b.nano := by
  rw [le, Bool.not_eq_true', Bool.eq_false_iff, Ne, lt_iff]
  omega

theorem date_eq_iff (valid : d.isValid = true) : t.date = d ↔ t.day = d.toDays := by
  constructor
  · rintro rfl
    exact (Date.toDays_ofDays t.day).symm
  · intro same
    rw [date, same, Date.ofDays_toDays valid]

theorem startOf_le_iff (valid : d.isValid = true) : (startOf d).le t = true ↔ d ≤ t.date := by
  rw [le_iff, date, Date.le_ofDays_iff valid, day, Int.fdiv_eq_ediv_of_nonneg _ (by decide)]
  unfold startOf ofDate
  dsimp only
  omega

theorem le_endOf_iff (valid : d.isValid = true) :
    t.le (endOf d) = true ↔ t.date ≤ d ∧ (t.date = d → ¬ t.InLastMilli) := by
  rw [le_iff, date_eq_iff valid, date, Date.ofDays_le_iff valid, InLastMilli, secondOfDay, day,
    Int.fdiv_eq_ediv_of_nonneg _ (by decide), Int.fmod_eq_emod_of_nonneg _ (by decide)]
  unfold endOf ofDate
  dsimp only
  omega

end

end Time.Instant

namespace Filter

/-! ## Reading ranges -/

/-- The text of a bound. -/
def boundText : Option Date → String
  | none => ""
  | some d => d.written

section

variable {bound start stop : Option Date}

theorem boundText_chars (plain : ∀ d ∈ bound, d.IsPlain) :
    ∀ c ∈ (boundText bound).toList, c.isDigit = true ∨ c = '-' := by
  cases bound with
  | none => exact fun c inside => absurd inside List.not_mem_nil
  | some d => exact Date.written_chars (plain d rfl)

theorem visible_of_plain {c : Char} (h : c.isDigit = true ∨ c = '-') : Text.isBlank c = false := by
  rcases h with digit | rfl
  · exact digit_visible digit
  · rfl

theorem readBound_boundText (ofDate : Date → Instant) (plain : ∀ d ∈ bound, d.IsPlain) :
    readBound ofDate (boundText bound) = .ok (bound.map ofDate) := by
  cases bound with
  | none => rfl
  | some d =>
      have chars := boundText_chars plain
      have trimmed : Text.trim d.written = d.written :=
        Text.trim_of_visible fun c inside => visible_of_plain (chars c inside)
      have present : d.written.isEmpty = false := by
        obtain ⟨year, month, day, text, -⟩ := Date.written_parts (plain d rfl)
        refine Bool.eq_false_iff.mpr fun none => ?_
        rw [String.isEmpty_iff.mp none] at text
        simp at text
      rw [boundText, readBound, trimmed, present]
      simp only [Bool.false_eq_true, if_false, Date.ofRfc3339?_written (plain d rfl),
        Date.ofText_written (plain d rfl), Option.map_some]

theorem range_valid (valid : ∀ d, d ∈ start ∨ d ∈ stop → d.isValid = true)
    (ordered : ∀ a ∈ start, ∀ b ∈ stop, a ≤ b) :
    (dateRange (start.map Instant.startOf) (stop.map Instant.endOf)).validate = .ok () := by
  cases start with
  | none => rfl
  | some a =>
      cases stop with
      | none => rfl
      | some b =>
          refine if_neg fun inverted => ?_
          have le := (Date.toDays_le_iff (valid a (.inl rfl)) (valid b (.inr rfl))).mpr
            (ordered a rfl b rfl)
          rw [Instant.lt_iff] at inverted
          unfold Instant.endOf Instant.startOf Instant.ofDate at inverted
          dsimp only at inverted
          omega

/-- The text of a range: two bounds, of which each may be left out. -/
def rangeText (start stop : Option Date) : String :=
  boundText start ++ ".." ++ boundText stop

theorem rangeText_chars (start stop : Option Date) : (rangeText start stop).toList =
    (boundText start).toList ++ '.' :: (['.'] ++ (boundText stop).toList) := by
  simp [rangeText, String.toList_append]

theorem trim_rangeText (plainStart : ∀ d ∈ start, d.IsPlain) (plainStop : ∀ d ∈ stop, d.IsPlain) :
    Text.trim (rangeText start stop) = rangeText start stop ∧
      (rangeText start stop).isEmpty = false := by
  constructor
  · refine Text.trim_of_visible ?_
    rw [rangeText_chars]
    simp only [List.forall_mem_append, List.forall_mem_cons]
    exact ⟨fun c inside => visible_of_plain (boundText_chars plainStart c inside), rfl,
      ⟨rfl, List.forall_mem_nil _⟩,
      fun c inside => visible_of_plain (boundText_chars plainStop c inside)⟩
  · refine Bool.eq_false_iff.mpr fun none => ?_
    have text := rangeText_chars start stop
    rw [String.isEmpty_iff.mp none] at text
    simp at text

theorem cut_rangeText (plain : ∀ d ∈ start, d.IsPlain) (stop : Option Date) :
    Text.cutOn? (rangeText start stop) ".." = some (boundText start, boundText stop) := by
  have absent : '.' ∉ (boundText start).toList := by
    intro inside
    rcases boundText_chars plain '.' inside with digit | hyphen
    · cases digit
    · cases hyphen
  have marks : "..".toList = ['.', '.'] := rfl
  rw [Text.cutOn?, rangeText_chars, marks, Text.cutOnPart?_append absent]
  simp only [Option.map_some, String.ofList_toList]

theorem readValue_range {value first last : String} {earliest latest : Option Instant}
    (cut : Text.cutOn? value ".." = some (first, last))
    (readFirst : readBound Instant.startOf first = .ok earliest)
    (readLast : readBound Instant.endOf last = .ok latest) :
    readValue .dateRange value = .ok (dateRange earliest latest) := by
  delta readValue
  dsimp only
  rw [cut]
  dsimp only
  rw [readFirst, readLast]
  rfl

theorem read_rangeText (plain : ∀ d, d ∈ start ∨ d ∈ stop → d.IsPlain)
    (ordered : ∀ a ∈ start, ∀ b ∈ stop, a ≤ b) :
    read "date" (rangeText start stop) =
      .ok (dateRange (start.map Instant.startOf) (stop.map Instant.endOf)) := by
  have plainStart : ∀ d ∈ start, d.IsPlain := fun d inside => plain d (.inl inside)
  have plainStop : ∀ d ∈ stop, d.IsPlain := fun d inside => plain d (.inr inside)
  have type : FilterType.ofKey? "date" = some .dateRange := rfl
  have value := readValue_range (cut_rangeText plainStart stop)
    (readBound_boundText Instant.startOf plainStart) (readBound_boundText Instant.endOf plainStop)
  obtain ⟨trimmed, present⟩ := trim_rangeText plainStart plainStop
  delta read
  rw [type]
  dsimp only
  rw [trimmed, present, if_neg Bool.false_ne_true, value]
  dsimp only
  rw [range_valid (fun d inside => (plain d inside).1) ordered]
  rfl

end

/-! ## What a range lets pass -/

theorem dateRange_accepts {start stop : Option Date} (plain : ∀ d, d ∈ start ∨ d ∈ stop → d.IsPlain)
    (ordered : ∀ a ∈ start, ∀ b ∈ stop, a ≤ b) :
    ∃ f set, read "date" (rangeText start stop) = .ok f ∧ FilterSet.ofList [f] = .ok set ∧
      ∀ m : Metadata, set.matchesMetadata m = true ↔
        (∀ a ∈ start, a ≤ m.modifiedAt.date) ∧
        ∀ b ∈ stop, m.modifiedAt.date ≤ b ∧
          (m.modifiedAt.date = b → ¬ m.modifiedAt.InLastMilli) := by
  obtain ⟨set, made, accepts⟩ :=
    FilterSet.ofList_alone (range_valid (fun d inside => (plain d inside).1) ordered) nofun nofun
  refine ⟨_, set, read_rangeText plain ordered, made, fun m => ?_⟩
  rw [accepts, FilterSet.admitsEntry, Bool.and_eq_true, Option.all_eq_true, Option.all_eq_true]
  simp only [Option.mem_def, Option.map_eq_some_iff, forall_exists_index, and_imp,
    forall_apply_eq_imp_iff₂]
  refine and_congr (forall₂_congr fun a inside => ?_) (forall₂_congr fun b inside => ?_)
  · exact Instant.startOf_le_iff (plain a (.inl inside)).1
  · exact Instant.le_endOf_iff (plain b (.inr inside)).1

/-! The first ten days of March 2024, and a change in the last millisecond of them. -/

def firstOfMarch : Date :=
  ⟨2024, 3, 1⟩

def tenthOfMarch : Date :=
  ⟨2024, 3, 10⟩

theorem march_plain (d : Date) (inside : d ∈ some firstOfMarch ∨ d ∈ some tenthOfMarch) :
    d.IsPlain := by
  rcases inside with first | tenth
  · exact Option.mem_some.mp first ▸ (by decide : firstOfMarch.IsPlain)
  · exact Option.mem_some.mp tenth ▸ (by decide : tenthOfMarch.IsPlain)

theorem march_ordered : ∀ a ∈ some firstOfMarch, ∀ b ∈ some tenthOfMarch, a ≤ b := by
  rintro a ⟨⟩ b ⟨⟩
  decide

theorem march_text :
    rangeText (some firstOfMarch) (some tenthOfMarch) = "2024-03-01..2024-03-10" := by
  decide +kernel

def atNoon : Metadata where
  language := .python
  path := "a.py"
  kind := .function
  modifiedAt := ⟨1710072000, 0⟩
  author := none

theorem march_accepts : firstOfMarch.IsPlain ∧ tenthOfMarch.IsPlain ∧ firstOfMarch ≤ tenthOfMarch ∧
    ∃ f set, read "date" "2024-03-01..2024-03-10" = .ok f ∧ FilterSet.ofList [f] = .ok set ∧
      set.matchesMetadata atNoon = true := by
  refine ⟨by decide, by decide, by decide, ?_⟩
  obtain ⟨f, set, taken, made, accepts⟩ := dateRange_accepts march_plain march_ordered
  rw [march_text] at taken
  refine ⟨f, set, taken, made, (accepts atNoon).mpr ⟨?_, ?_⟩⟩
  · rintro a ⟨⟩
    decide
  · rintro b ⟨⟩
    decide

/-- At half a millisecond to midnight. -/
def beforeMidnight : Metadata :=
  { atNoon with modifiedAt := ⟨1710115199, 999500000⟩ }

theorem march_refuses : ∃ f set, read "date" "2024-03-01..2024-03-10" = .ok f ∧
    FilterSet.ofList [f] = .ok set ∧ beforeMidnight.modifiedAt.date = tenthOfMarch ∧
    set.matchesMetadata beforeMidnight = false := by
  obtain ⟨set, made, accepts⟩ := FilterSet.ofList_alone
    (range_valid (fun d inside => (march_plain d inside).1) march_ordered) nofun nofun
  refine ⟨_, set, ?_, made, by decide, ?_⟩
  · rw [← march_text]
    exact read_rangeText march_plain march_ordered
  · rw [accepts]
    decide

end Filter

end CodeSearch

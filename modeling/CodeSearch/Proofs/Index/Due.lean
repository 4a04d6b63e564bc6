import CodeSearch.Proofs.Index.Noting

/-! # What is due

Content is due when its file stands as failed, the content is kept, and the time of the next attempt
has come. The content that is kept of a path is content of this path, so that what is due of a path
is read off its entry.
-/

namespace CodeSearch

open Time (Instant)

/-- Whether a note leaves what is kept of a path to be tried again. -/
def Note.passes : Note → Bool
  | nothing | entered _ | abandoned => true
  | failed _ _ | indexed | removed => false

theorem Note.on_passes {note : Note} (passes : note.passes = true) (e : FileEntry) :
    (note.on e).retry = e.retry ∧
      ∀ failure, (note.on e).status = .failed failure → e.status = .failed failure := by
  cases note with
  | failed | indexed | removed => cases passes
  | nothing => exact ⟨rfl, fun _ => id⟩
  | entered stage =>
      refine ⟨rfl, fun failure => ?_⟩
      simp only [Note.on]
      split
      · intro same
        cases same
      · intro same
        cases same
  | abandoned =>
      simp only [Note.on]
      split
      · refine ⟨rfl, fun failure => ?_⟩
        simp only
        split
        · intro same
          cases same
        · intro same
          cases same
      · exact ⟨rfl, fun _ => id⟩

namespace FileTable

/-- Every path has one entry, and what is kept of it to try again is of that path. -/
structure Tidy (t : FileTable) : Prop where
  distinct : (Keyed.keys t.entries).Nodup
  place : ∀ path e retry, t.get? path = some e → e.retry = some retry → retry.change.path = path

section

variable {t after : FileTable} {path : String}

theorem Tidy.empty : ({} : FileTable).Tidy :=
  ⟨List.nodup_nil, fun _ _ _ held => nomatch held⟩

theorem Tidy.begin (tidy : t.Tidy) (path : String) : (t.begin path).2.Tidy := by
  refine ⟨Keyed.nodup_put tidy.distinct _ _, fun other e retry held pending => ?_⟩
  have entry := (Keyed.get?_put t.entries path other _).symm.trans held
  split at entry
  · rename_i here
    cases entry
    cases known : t.get? path with
    | none =>
        rw [known] at pending
        cases pending
    | some before =>
        rw [known] at pending
        exact here ▸ tidy.place path before retry known pending
  · exact tidy.place other e retry entry pending

theorem Tidy.notes (tidy : t.Tidy) {note : Note} (notes : t.Notes path note after)
    (own : ∀ failure retry, note = .failed failure retry → retry.change.path = path) :
    after.Tidy := by
  refine ⟨notes.distinct tidy.distinct, fun other e' retry held pending => ?_⟩
  by_cases here : other = path
  · rw [here, notes.self] at held
    obtain ⟨e, before, rfl⟩ := Option.map_eq_some_iff.mp held
    rw [here]
    cases note with
    | failed failure kept =>
        cases pending
        exact own failure retry rfl
    | indexed | removed => cases pending
    | nothing | entered => exact tidy.place path e retry before pending
    | abandoned =>
        refine tidy.place path e retry before ?_
        simp only [Note.on] at pending
        split at pending
        · exact pending
        · exact pending
  · exact tidy.place other e' retry ((notes.other here).symm.trans held) pending

/-- What is known after a pruning was known before. -/
theorem Tidy.known_before_prune (tidy : t.Tidy) {e : FileEntry}
    (known : t.prune.2.get? path = some e) : t.get? path = some e :=
  Keyed.get?_of_mem tidy.distinct (List.mem_of_mem_filter (Keyed.mem_of_get? known))

theorem Tidy.prune (tidy : t.Tidy) : t.prune.2.Tidy :=
  ⟨Keyed.nodup_filter tidy.distinct _, fun path e retry held pending =>
    tidy.place path e retry (tidy.known_before_prune held) pending⟩

/-- What is due of an entry is what is kept of its failure, from the time of the next attempt on. -/
theorem dueOf_eq_some {now : Instant} {e : FileEntry} {change : FileChange} :
    dueOf now e = some change ↔ ∃ failure retry time, e.status = .failed failure ∧
      e.retry = some retry ∧ failure.nextRetryAt = some time ∧ time.le now = true ∧
        retry.change = change := by
  constructor
  · intro due
    unfold dueOf at due
    split at due
    · rename_i failure retry failed kept
      obtain ⟨reached, same⟩ := Option.ite_none_right_eq_some.mp due
      obtain ⟨time, next, before⟩ := (Option.any_eq_true _ _).mp reached
      exact ⟨failure, retry, time, failed, kept, next, before, Option.some.inj same⟩
    · cases due
  · rintro ⟨failure, retry, time, failed, kept, next, before, rfl⟩
    simp only [dueOf, failed, kept, next, Option.any_some, before, if_true]

theorem Tidy.mem_dueRetries (tidy : t.Tidy) {now : Instant} {change : FileChange} :
    change ∈ t.dueRetries now ↔
      ∃ e, t.get? change.path = some e ∧ dueOf now e = some change := by
  rw [dueRetries, List.mem_mergeSort, List.mem_filterMap]
  constructor
  · rintro ⟨⟨path, e⟩, inside, due⟩
    have held : t.get? path = some e := Keyed.get?_of_mem tidy.distinct inside
    obtain ⟨_, retry, _, -, kept, -, -, rfl⟩ := dueOf_eq_some.mp due
    rw [tidy.place path e retry held kept]
    exact ⟨e, held, due⟩
  · rintro ⟨e, held, due⟩
    exact ⟨(change.path, e), Keyed.mem_of_get? held, due⟩

/-- What is kept of a failure is due from the time of the next attempt on. -/
theorem Tidy.kept_due (tidy : t.Tidy) {now : Instant} {e : FileEntry} {failure : Failure}
    {retry : PendingRetry} (known : t.get? retry.change.path = some e)
    (failed : e.status = .failed failure) (kept : e.retry = some retry) :
    retry.change ∈ t.dueRetries now ↔
      ∃ time, failure.nextRetryAt = some time ∧ time.le now = true := by
  rw [tidy.mem_dueRetries]
  constructor
  · rintro ⟨e', known', due⟩
    cases known.symm.trans known'
    obtain ⟨_, _, time, standing, -, next, before, -⟩ := dueOf_eq_some.mp due
    cases failed.symm.trans standing
    exact ⟨time, next, before⟩
  · rintro ⟨time, next, before⟩
    exact ⟨e, known, dueOf_eq_some.mpr ⟨failure, retry, time, failed, kept, next, before, rfl⟩⟩

/-- A change that is due is of a path that stands as failed. -/
theorem Tidy.due (tidy : t.Tidy) {now : Instant} {change : FileChange}
    (due : change ∈ t.dueRetries now) :
    ∃ e, t.get? change.path = some e ∧ e.status.isFailed = true := by
  obtain ⟨e, held, due⟩ := tidy.mem_dueRetries.mp due
  obtain ⟨failure, _, _, failed, -⟩ := dueOf_eq_some.mp due
  exact ⟨e, held, by rw [failed]; rfl⟩

end

end FileTable

end CodeSearch

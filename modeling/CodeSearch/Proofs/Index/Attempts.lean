import CodeSearch.Proofs.Index.Due
import CodeSearch.Proofs.Index.FileTable

/-! # Counting attempts

The table keeps the latest failure of a path only, with the number of attempts that failed so far.
Beside it, a ledger lists every failure of the path since it was last served or removed. What the
table keeps is what the ledger tells, so that content is tried again as often as the policy allows
and no more often. A pruning can drop what is kept of a path, and the count with it; it has no place
here.
-/

namespace CodeSearch.FileTable

open Time (Instant)

/-! ## The ledger -/

/-- A failure that was noted, and the content that failed. -/
structure Recorded where
  failure : Failure
  change : FileChange
  contentHash : String
  /-- When it was noted. -/
  time : Instant
  /-- Whether the content was since offered to be tried again. -/
  offered : Bool := false

namespace Recorded

/-- What the table keeps of a failure. -/
def pending (r : Recorded) : PendingRetry :=
  ⟨r.change, r.contentHash, r.failure.attempts⟩

def offer (r : Recorded) : Recorded :=
  { r with offered := true }

end Recorded

/-- The failure that an action notes, if it notes one. -/
def recorded? (t : FileTable) : Action → Option Recorded
  | .fail backoff now generation kind error change contentHash =>
    match t.fail backoff now generation kind error change contentHash with
    | .ok (some failure, _) => some { failure, change, contentHash, time := now }
    | _ => none
  | _ => none

/-- Whether an action notes that a path is served, or that it is served no more. -/
def resolves (path : String) (t : FileTable) : Action → Bool
  | .markIndexed other generation => other == path && t.isCurrent path generation
  | .markRemoved other => other == path
  | _ => false

/-- Whether an action offers content of a path to be tried again. -/
def offers (path : String) (t : FileTable) : Action → Bool
  | .due now => (t.dueRetries now).any (·.path == path)
  | _ => false

/-- A table, and the failures of a path since it was last served or removed, the latest first. -/
structure Ledger where
  table : FileTable := {}
  failures : List Recorded := []

namespace Ledger

/-- The ledger after an action. Content that is offered again before it fails again is offered
    once. -/
def act (path : String) (l : Ledger) (a : Action) : Ledger where
  table := l.table.act a
  failures :=
    if l.table.resolves path a then []
    else if l.table.offers path a then l.failures.modifyHead Recorded.offer
    else
      match l.table.recorded? a with
      | some r => if r.change.path = path then r :: l.failures else l.failures
      | none => l.failures

def actAll (path : String) (actions : List Action) : Ledger :=
  actions.foldl (act path) {}

end Ledger

/-- Failures are noted under one policy, and nothing is pruned. -/
def Action.Under (b : Backoff) : Action → Prop
  | .fail backoff _ _ _ _ _ _ => backoff = b
  | .prune => False
  | _ => True

/-! ## What the ledger tells -/

/-- The number of failures in a row, the latest first, that are of one content. -/
def streak (contentHash : String) (failures : List Recorded) : Nat :=
  (failures.takeWhile (·.contentHash == contentHash)).length

/-- Each failure has the number of failures in a row that it ends. -/
def Numbered (failures : List Recorded) : Prop :=
  ∀ r older, r :: older <:+ failures →
    r.failure.attempts = streak r.contentHash (r :: older)

/-- A failure has a time of the next attempt only as the policy gives it one, and is offered only
    when it has one. -/
structure Recorded.Scheduled (b : Backoff) (r : Recorded) : Prop where
  next : ∀ time, r.failure.nextRetryAt = some time → r.failure.kind.isRetryable = true ∧
    r.failure.attempts < b.maxAttempts ∧
      r.time.addMillis? (b.delayMs r.failure.attempts) = some time
  offered : r.offered = true → r.failure.nextRetryAt.isSome = true

/-- The table keeps the latest failure of the ledger, and a path stands as failed only by it. -/
structure Ledger.Agrees (path : String) (l : Ledger) : Prop where
  tidy : l.table.Tidy
  kept : (l.table.get? path).bind (·.retry) = l.failures.head?.map Recorded.pending
  shown : ∀ e failure, l.table.get? path = some e → e.status = .failed failure →
    ∃ r older, l.failures = r :: older ∧ r.failure = failure

section

variable {t after : FileTable} {b : Backoff} {path place : String} {l : Ledger} {note : Note}
variable {failures : List Recorded} {r : Recorded}

theorem streak_cons_self (r : Recorded) (older : List Recorded) :
    streak r.contentHash (r :: older) = streak r.contentHash older + 1 := by
  rw [streak, List.takeWhile_cons_of_pos (by simp), List.length_cons, streak]

theorem Numbered.cons (numbered : Numbered failures)
    (attempts : r.failure.attempts = streak r.contentHash (r :: failures)) :
    Numbered (r :: failures) := by
  intro q older inside
  rcases List.suffix_cons_iff.mp inside with same | before
  · cases same
    exact attempts
  · exact numbered q older before

theorem Numbered.tail (numbered : Numbered (r :: failures)) : Numbered failures :=
  fun q older inside => numbered q older (inside.trans (List.suffix_cons r failures))

/-! ## What an action does -/

theorem nextRetryAt_ok {now time : Instant} {attempts : Nat}
    (h : b.nextRetryAt now attempts = .ok (some time)) :
    attempts < b.maxAttempts ∧ now.addMillis? (b.delayMs attempts) = some time := by
  unfold Backoff.nextRetryAt at h
  split at h
  · cases h
  · rename_i few
    split at h
    · rename_i sum
      cases h
      exact ⟨Nat.lt_of_not_le few, sum⟩
    · cases h

/-- A failure that is noted is one more of what is kept, and is scheduled by the policy. -/
theorem fail_scheduled {now : Instant} {generation : Nat} {kind : FailureKind}
    {error contentHash : String} {change : FileChange} {failure : Failure}
    (h : t.fail b now generation kind error change contentHash = .ok (some failure, after)) :
    (∃ e, t.get? change.path = some e ∧ failure.attempts = attemptsOf e contentHash) ∧
      Recorded.Scheduled b { failure, change, contentHash, time := now } := by
  unfold fail at h
  cases found : t.current? change.path generation with
  | none =>
      rw [found] at h
      cases h
  | some e =>
      have held : t.get? change.path = some e := current?_some found
      simp only [found, bind, Except.bind, pure, Except.pure] at h
      split at h
      · rename_i retryable
        split at h
        · cases h
        · rename_i next given
          cases h
          refine ⟨⟨e, held, rfl⟩, fun time same => ⟨retryable, ?_⟩, nofun⟩
          exact nextRetryAt_ok (given.trans (congrArg Except.ok same))
      · cases h
        exact ⟨⟨e, held, rfl⟩, nofun, nofun⟩

/-- Nothing is noted of a failure that is not that of the latest event. -/
theorem fail_refused {now : Instant} {generation : Nat} {kind : FailureKind}
    {error contentHash : String} {change : FileChange}
    (h : t.fail b now generation kind error change contentHash = .ok (none, after)) : after = t := by
  have late : t.isCurrent change.path generation = false := (fail_ok h).1 rfl
  rw [fail, current?_of_late late] at h
  cases h
  rfl

namespace Ledger

namespace Agrees

theorem empty : ({} : Ledger).Agrees path :=
  ⟨.empty, rfl, fun _ _ held => nomatch held⟩

/-- What changes neither what is kept of the path nor its failure. -/
theorem still (agrees : l.Agrees path) (tidy : after.Tidy)
    (kept : (after.get? path).bind (·.retry) = (l.table.get? path).bind (·.retry))
    (shown : ∀ e' failure, after.get? path = some e' → e'.status = .failed failure →
      ∃ e, l.table.get? path = some e ∧ e.status = .failed failure) :
    Agrees path ⟨after, l.failures⟩ := by
  refine ⟨tidy, kept.trans agrees.kept, fun e' failure held failed => ?_⟩
  obtain ⟨e, before, failedBefore⟩ := shown e' failure held failed
  exact agrees.shown e failure before failedBefore

theorem begin (agrees : l.Agrees path) (other : String) :
    Agrees path ⟨(l.table.begin other).2, l.failures⟩ := by
  have entry : (l.table.begin other).2.get? path = if path = other then
      some { (l.table.get? other).getD {} with generation := (l.table.begin other).1 }
      else l.table.get? path := Keyed.get?_put ..
  by_cases here : path = other
  · subst here
    rw [if_pos rfl] at entry
    refine agrees.still (agrees.tidy.begin path) ?_ fun e' failure held failed => ?_
    · rw [entry]
      cases l.table.get? path with
      | none => rfl
      | some e => rfl
    · rw [entry] at held
      cases held
      cases known : l.table.get? path with
      | none =>
          rw [known] at failed
          cases failed
      | some e =>
          rw [known] at failed
          exact ⟨e, rfl, failed⟩
  · rw [if_neg here] at entry
    exact agrees.still (agrees.tidy.begin other) (by rw [entry]) fun e' failure held failed =>
      ⟨e', entry ▸ held, failed⟩

/-- A note of another path, or one that leaves what is kept. -/
theorem noted (agrees : l.Agrees path) (notes : l.table.Notes place note after)
    (own : ∀ failure retry, note = .failed failure retry → retry.change.path = place)
    (passes : place = path → note.passes = true) : Agrees path ⟨after, l.failures⟩ := by
  refine agrees.still (agrees.tidy.notes notes own) ?_ fun e' failure held failed => ?_
  · by_cases here : path = place
    · rw [here, notes.self]
      cases l.table.get? place with
      | none => rfl
      | some e => exact (Note.on_passes (passes here.symm) e).1
    · rw [notes.other here]
  · by_cases here : path = place
    · rw [here, notes.self] at held
      obtain ⟨e, before, rfl⟩ := Option.map_eq_some_iff.mp held
      exact ⟨e, here ▸ before, (Note.on_passes (passes here.symm) e).2 failure failed⟩
    · exact ⟨e', (notes.other here).symm.trans held, failed⟩

/-- The path is served, or served no more. -/
theorem resolved (agrees : l.Agrees path) (notes : l.table.Notes path note after)
    (resolves : note = .indexed ∨ note = .removed) : Agrees path ⟨after, []⟩ := by
  have own (failure : Failure) (retry : PendingRetry) : note ≠ .failed failure retry := by
    rcases resolves with rfl | rfl
    · exact nofun
    · exact nofun
  have cleared (e : FileEntry) :
      (note.on e).retry = none ∧ ∀ failure, (note.on e).status ≠ .failed failure := by
    rcases resolves with rfl | rfl
    · exact ⟨rfl, nofun⟩
    · exact ⟨rfl, nofun⟩
  refine ⟨agrees.tidy.notes notes fun failure retry same => absurd same (own failure retry), ?_,
    fun e' failure held failed => ?_⟩
  · rw [notes.self]
    cases l.table.get? path with
    | none => rfl
    | some e => exact (cleared e).1
  · rw [notes.self] at held
    obtain ⟨e, -, rfl⟩ := Option.map_eq_some_iff.mp held
    exact absurd failed ((cleared e).2 failure)

theorem recorded (agrees : l.Agrees path) (here : r.change.path = path) {e : FileEntry}
    (held : l.table.get? path = some e)
    (notes : l.table.Notes path (.failed r.failure r.pending) after) :
    Agrees path ⟨after, r :: l.failures⟩ := by
  have entry := notes.self
  rw [held, Option.map_some] at entry
  refine ⟨agrees.tidy.notes notes fun failure retry same => ?_, ?_, fun e' failure held failed => ?_⟩
  · cases same
    exact here
  · rw [entry]
    rfl
  · rw [entry] at held
    cases held
    cases failed
    exact ⟨r, l.failures, rfl, rfl⟩

/-- What is due of the path is the content of its latest failure, as soon as its time has come. -/
theorem due (agrees : l.Agrees path) {now : Instant} {change : FileChange}
    (due : change ∈ l.table.dueRetries now) (here : change.path = path) :
    ∃ r older time, l.failures = r :: older ∧ r.change = change ∧
      r.failure.nextRetryAt = some time ∧ time.le now = true := by
  obtain ⟨e, held, due⟩ := agrees.tidy.mem_dueRetries.mp due
  obtain ⟨failure, retry, time, failed, kept, next, reached, rfl⟩ := dueOf_eq_some.mp due
  rw [here] at held
  obtain ⟨r, older, latest, rfl⟩ := agrees.shown e failure held failed
  have same : some retry = some r.pending := by
    rw [← kept, ← Option.bind_some e (·.retry), ← held, agrees.kept, latest]
    rfl
  exact ⟨r, older, time, latest, congrArg PendingRetry.change (Option.some.inj same).symm, next,
    reached⟩

theorem offered (agrees : l.Agrees path) :
    Agrees path ⟨l.table, l.failures.modifyHead Recorded.offer⟩ := by
  refine ⟨agrees.tidy, agrees.kept.trans ?_, fun e failure held failed => ?_⟩
  · cases l.failures with
    | nil => rfl
    | cons r older => rfl
  · obtain ⟨r, older, latest, same⟩ := agrees.shown e failure held failed
    exact ⟨r.offer, older, by rw [latest]; rfl, same⟩

end Agrees

/-- One failure more of the path is numbered after those that were noted before. -/
theorem Agrees.numbered (agrees : l.Agrees path) (numbered : Numbered l.failures) {e : FileEntry}
    (held : l.table.get? path = some e)
    (attempts : r.failure.attempts = attemptsOf e r.contentHash) : Numbered (r :: l.failures) := by
  refine numbered.cons (attempts.trans ?_)
  have kept := agrees.kept
  rw [held, Option.bind_some] at kept
  rw [streak_cons_self, attemptsOf, kept]
  cases latest : l.failures with
  | nil => rfl
  | cons q older =>
      have before : q.failure.attempts = streak q.contentHash (q :: older) :=
        numbered q older (latest ▸ List.suffix_refl _)
      simp only [List.head?_cons, Option.map_some, Recorded.pending]
      split
      · rename_i same
        rw [before, same]
      · rename_i different
        rw [streak, List.takeWhile_cons_of_neg (by simpa using different), List.length_nil]

/-- What is true of a ledger all along a run. -/
structure Sound (b : Backoff) (path : String) (l : Ledger) : Prop where
  agrees : l.Agrees path
  numbered : Numbered l.failures
  scheduled : ∀ r ∈ l.failures, r.Scheduled b

namespace Sound

theorem empty : ({} : Ledger).Sound b path :=
  ⟨.empty, fun _ _ inside => (nomatch List.suffix_nil.mp inside),
    fun _ inside => (nomatch inside)⟩

/-- What leaves the failures as they are. -/
theorem still (sound : l.Sound b path) (agrees : Agrees path ⟨after, l.failures⟩) :
    Sound b path ⟨after, l.failures⟩ :=
  ⟨agrees, sound.numbered, sound.scheduled⟩

theorem resolved (agrees : Agrees path ⟨after, []⟩) : Sound b path ⟨after, []⟩ :=
  ⟨agrees, fun _ _ inside => (nomatch List.suffix_nil.mp inside),
    fun _ inside => (nomatch inside)⟩

theorem offered (sound : l.Sound b path) {now : Instant} {change : FileChange}
    (due : change ∈ l.table.dueRetries now) (here : change.path = path) :
    Sound b path ⟨l.table, l.failures.modifyHead Recorded.offer⟩ := by
  obtain ⟨r, older, time, latest, -, next, -⟩ := sound.agrees.due due here
  have numbered := sound.numbered
  have scheduled := sound.scheduled
  refine ⟨sound.agrees.offered, ?_, ?_⟩
  · rw [latest] at numbered ⊢
    have attempts := numbered r older (List.suffix_refl _)
    rw [streak_cons_self] at attempts
    exact numbered.tail.cons (attempts.trans (streak_cons_self r.offer older).symm)
  · rw [latest] at scheduled ⊢
    intro q inside
    rcases List.mem_cons.mp inside with rfl | before
    · refine ⟨(scheduled r List.mem_cons_self).next, fun _ => ?_⟩
      exact Option.isSome_iff_exists.mpr ⟨time, next⟩
    · exact scheduled q (List.mem_cons_of_mem r before)

theorem recorded (sound : l.Sound b path) (here : r.change.path = path) {e : FileEntry}
    (held : l.table.get? path = some e) (attempts : r.failure.attempts = attemptsOf e r.contentHash)
    (notes : l.table.Notes path (.failed r.failure r.pending) after) (scheduled : r.Scheduled b) :
    Sound b path ⟨after, r :: l.failures⟩ := by
  refine ⟨sound.agrees.recorded here held notes,
    sound.agrees.numbered sound.numbered held attempts, fun q inside => ?_⟩
  rcases List.mem_cons.mp inside with rfl | before
  · exact scheduled
  · exact sound.scheduled q before

theorem act_silent {a : Action} (unresolved : l.table.resolves path a = false)
    (unoffered : l.table.offers path a = false) (unrecorded : l.table.recorded? a = none) :
    l.act path a = ⟨l.table.act a, l.failures⟩ := by
  simp only [Ledger.act, unresolved, unoffered, unrecorded, Bool.false_eq_true, if_false]

theorem act (sound : l.Sound b path) {a : Action} (under : a.Under b) :
    Sound b path (l.act path a) := by
  have agrees := sound.agrees
  cases a with
  | prune => cases under
  | begin other =>
      rw [act_silent rfl rfl rfl]
      exact sound.still (agrees.begin other)
  | enter other generation stage =>
      rw [act_silent rfl rfl rfl, FileTable.act]
      refine sound.still ?_
      cases current : l.table.isCurrent other generation with
      | true => exact agrees.noted (enter_notes current stage) (fun _ _ same => Note.noConfusion same) fun _ => rfl
      | false => exact (enter_late current stage).symm ▸ agrees
  | abandon other generation =>
      rw [act_silent rfl rfl rfl, FileTable.act]
      refine sound.still ?_
      cases current : l.table.isCurrent other generation with
      | true => exact agrees.noted (abandon_notes current) (fun _ _ same => Note.noConfusion same) fun _ => rfl
      | false => exact (abandon_late current).symm ▸ agrees
  | markIndexed other generation =>
      simp only [Ledger.act, resolves, offers, recorded?, FileTable.act]
      cases current : l.table.isCurrent other generation with
      | true =>
          by_cases here : other = path
          · subst here
            simp only [current, beq_self_eq_true, Bool.and_self, if_true]
            exact resolved (agrees.resolved (markIndexed_notes current) (.inl rfl))
          · simp only [beq_eq_false_iff_ne.mpr here, Bool.false_and, Bool.false_eq_true, if_false]
            exact sound.still (agrees.noted (markIndexed_notes current)
              (fun _ _ same => Note.noConfusion same) fun same => absurd same here)
      | false =>
          have unresolved : (other == path && l.table.isCurrent path generation) = false := by
            rw [Bool.and_eq_false_iff]
            refine (Bool.eq_false_or_eq_true (other == path)).symm.imp_right fun here => ?_
            exact eq_of_beq here ▸ current
          simp only [unresolved, Bool.false_eq_true, if_false, markIndexed_late current]
          exact sound
  | markRemoved other =>
      simp only [Ledger.act, resolves, offers, recorded?, FileTable.act]
      by_cases here : other = path
      · subst here
        simp only [beq_self_eq_true, if_true]
        exact resolved (agrees.resolved (markRemoved_notes _ _) (.inr rfl))
      · simp only [beq_eq_false_iff_ne.mpr here, Bool.false_eq_true, if_false]
        exact sound.still (agrees.noted (markRemoved_notes _ _) (fun _ _ same => Note.noConfusion same)
          fun same => absurd same here)
  | due now =>
      simp only [Ledger.act, resolves, recorded?, FileTable.act, Bool.false_eq_true, if_false]
      split
      · rename_i offered
        obtain ⟨change, due, here⟩ := List.any_eq_true.mp offered
        exact sound.offered due (eq_of_beq here)
      · exact sound
  | fail backoff now generation kind error change contentHash =>
      cases under
      simp only [Ledger.act, resolves, offers, recorded?, FileTable.act, Bool.false_eq_true, if_false]
      cases result : l.table.fail b now generation kind error change contentHash with
      | error _ => exact sound
      | ok noted =>
          obtain ⟨_ | failure, after⟩ := noted
          · obtain rfl := fail_refused result
            exact sound
          · obtain ⟨⟨e, held, attempts⟩, scheduled⟩ := fail_scheduled result
            obtain ⟨-, notes⟩ := fail_notes result
            dsimp only at held ⊢
            split
            · rename_i here
              rw [here] at held notes
              exact sound.recorded here held attempts notes scheduled
            · rename_i elsewhere
              refine sound.still (agrees.noted notes (fun _ _ same => ?_) fun here =>
                absurd here elsewhere)
              cases same
              rfl

theorem actAll {actions : List Action} (under : ∀ a ∈ actions, a.Under b) :
    Sound b path (actAll path actions) :=
  List.foldlRecOn (motive := Sound b path) actions _ empty fun _ sound a inside =>
    sound.act (under a inside)

end Sound

end Ledger

/-! ## How often content is tried again -/

/-- In a row of failures of one content, the latest has failed as often as the row is long. -/
theorem Numbered.length_le {rest post : List Recorded} (numbered : Numbered (r :: rest ++ post))
    (alike : ∀ q ∈ rest, q.contentHash = r.contentHash) :
    (r :: rest).length ≤ r.failure.attempts := by
  have attempts := numbered r (rest ++ post) (List.suffix_refl _)
  have whole : (rest ++ post).takeWhile (·.contentHash == r.contentHash) =
      rest ++ post.takeWhile (·.contentHash == r.contentHash) :=
    List.takeWhile_append_of_pos fun q inside => beq_iff_eq.mpr (alike q inside)
  rw [attempts, streak_cons_self, streak, whole, List.length_append, List.length_cons]
  omega

/-- As long as one content fails, it is offered fewer times than the policy allows attempts. -/
theorem offered_le {row post : List Recorded} (numbered : Numbered (row ++ post))
    (scheduled : ∀ r ∈ row, r.Scheduled b)
    (alike : ∀ r ∈ row, ∀ q ∈ row, q.contentHash = r.contentHash) :
    row.countP (·.offered) ≤ b.maxAttempts - 1 := by
  induction row with
  | nil => exact Nat.zero_le _
  | cons r rest ih =>
      have before := ih numbered.tail (fun q inside => scheduled q (List.mem_cons_of_mem r inside))
        fun q hq q' hq' => alike q (List.mem_cons_of_mem r hq) q' (List.mem_cons_of_mem r hq')
      cases offered : r.offered with
      | false => rwa [List.countP_cons_of_neg (by simp [offered])]
      | true =>
          have first := scheduled r List.mem_cons_self
          obtain ⟨time, next⟩ := Option.isSome_iff_exists.mp (first.offered offered)
          obtain ⟨-, few, -⟩ := first.next time next
          have long := numbered.length_le fun q inside =>
            alike r List.mem_cons_self q (List.mem_cons_of_mem r inside)
          have fewer : (r :: rest).countP (·.offered) ≤ (r :: rest).length := List.countP_le_length
          omega

/-- The failures of a path are counted, and bound how often its content is tried again. -/
structure Ledger.Counted (b : Backoff) (path : String) (l : Ledger) : Prop where
  /-- The table keeps the latest failure. -/
  kept : (l.table.get? path).bind (·.retry) = l.failures.head?.map Recorded.pending
  /-- A failure stores how many failures in a row, counted back from it, are of its content. -/
  attempts : ∀ r older, r :: older <:+ l.failures →
    r.failure.attempts = ((r :: older).takeWhile (·.contentHash == r.contentHash)).length
  /-- What is due failed last, may do better later, has attempts left, and has waited for its
      delay. -/
  due : ∀ now change, change ∈ l.table.dueRetries now → change.path = path →
    ∃ r older, l.failures = r :: older ∧ r.change = change ∧
      r.failure.kind.isRetryable = true ∧ r.failure.attempts < b.maxAttempts ∧
        ∃ time, r.time.addMillis? (b.delayMs r.failure.attempts) = some time ∧ time.le now = true
  /-- Of failures in a row of one content, at most one less than the attempts that are allowed is
      followed by an offer. -/
  offers : ∀ row, row <:+: l.failures → (∀ r ∈ row, ∀ q ∈ row, q.contentHash = r.contentHash) →
    row.countP (·.offered) ≤ b.maxAttempts - 1

theorem Ledger.Sound.counted (sound : l.Sound b path) : l.Counted b path := by
  constructor
  case kept => exact sound.agrees.kept
  case attempts => exact sound.numbered
  case due =>
    intro now change due here
    obtain ⟨r, older, time, latest, same, next, reached⟩ := sound.agrees.due due here
    have inside : r ∈ l.failures := latest ▸ List.mem_cons_self
    obtain ⟨retryable, few, sum⟩ := (sound.scheduled r inside).next time next
    exact ⟨r, older, latest, same, retryable, few, time, sum, reached⟩
  case offers =>
    rintro row ⟨newer, older, split⟩ alike
    have numbered : Numbered (row ++ older) := fun r before inside =>
      sound.numbered r before (inside.trans ⟨newer, by rw [← split, List.append_assoc]⟩)
    refine offered_le numbered (fun r inside => sound.scheduled r ?_) alike
    exact split ▸ List.mem_append_left _ (List.mem_append_right _ inside)

end

/-! ## Content that fails twice -/

/-- Two attempts, with one second after the first. -/
def twoAttempts : Backoff :=
  { baseDelayMs := 1000, maxAttempts := 2 }

/-- Content of a file fails, and what is due is read half a second and a second later. -/
def attempt (generation : Nat) (second : Int) : List Action :=
  [.begin "a.py",
    .fail twoAttempts ⟨second, 0⟩ generation .embedding "provider offline"
      { path := "a.py", source := { text := "f()", trees := [] } } "f",
    .due ⟨second, 500000000⟩, .due ⟨second + 1, 0⟩]

end CodeSearch.FileTable

import CodeSearch.Index.FileTable
import CodeSearch.Proofs.Along
import CodeSearch.Proofs.Keyed

/-! # Events in the table of files

Only the begin of an event gives a path another generation. Everything else that is noted in the
table leaves the generations of all paths as they are, and what is refused is refused because a
later event came in.
-/

namespace CodeSearch.FileTable

open Time (Instant)

/-- Number of the latest event of a path. -/
def generation? (t : FileTable) (path : String) : Option Nat :=
  (t.get? path).map (·.generation)

/-- No path has other events in one table than in the other. -/
def SameEvents (a b : FileTable) : Prop :=
  ∀ path, a.generation? path = b.generation? path

theorem isCurrent_iff {t : FileTable} {path : String} {generation : Nat} :
    t.isCurrent path generation = true ↔ t.generation? path = some generation := by
  unfold isCurrent generation?
  cases t.get? path with
  | none => simp
  | some e => simp

theorem generation?_put (t : FileTable) (path other : String) (e : FileEntry) :
    (t.put path e).generation? other =
      if other = path then some e.generation else t.generation? other := by
  have held : (t.put path e).get? other = if other = path then some e else t.get? other :=
    Keyed.get?_put t.entries path other e
  rw [generation?, held]
  split
  · rfl
  · rfl

theorem put_events {t : FileTable} {path : String} {before e : FileEntry}
    (held : t.get? path = some before) (same : e.generation = before.generation) :
    SameEvents (t.put path e) t := by
  intro other
  rw [generation?_put]
  split
  · rename_i here
    rw [here, generation?, held, same, Option.map_some]
  · rfl

theorem generation?_begin (t : FileTable) (path other : String) :
    (t.begin path).2.generation? other =
      if other = path then some (t.begin path).1 else t.generation? other :=
  generation?_put t path other _

/-- A new event comes after all earlier ones. -/
theorem lt_begin {t : FileTable} {path : String} {generation : Nat}
    (known : t.generation? path = some generation) : generation < (t.begin path).1 := by
  obtain ⟨e, held, rfl⟩ := Option.map_eq_some_iff.mp known
  simp only [begin, held, Option.getD_some]
  exact Nat.lt_succ_self _

section

variable {t : FileTable} {path : String} {generation : Nat}

theorem current?_some {e : FileEntry} (h : t.current? path generation = some e) :
    t.get? path = some e :=
  (Option.filter_eq_some_iff.mp h).1

theorem current?_none (h : t.current? path generation = none) :
    t.isCurrent path generation = false := by
  unfold current? at h
  unfold isCurrent
  cases held : t.get? path with
  | none => rfl
  | some e =>
      rw [held, Option.filter_eq_none_iff] at h
      simpa using h e rfl

theorem enter_events (t : FileTable) (path : String) (generation : Nat) (stage : Stage) :
    SameEvents (t.enter path generation stage).2 t := by
  unfold enter
  cases held : t.current? path generation with
  | none => exact fun _ => rfl
  | some e => exact put_events (current?_some held) rfl

theorem enter_refused {stage : Stage} (h : (t.enter path generation stage).1 = false) :
    t.isCurrent path generation = false := by
  unfold enter at h
  cases held : t.current? path generation with
  | none => exact current?_none held
  | some e =>
      rw [held] at h
      cases h

theorem markIndexed_events (t : FileTable) (path : String) (generation : Nat) :
    SameEvents (t.markIndexed path generation) t := by
  unfold markIndexed
  cases held : t.current? path generation with
  | none => exact fun _ => rfl
  | some e => exact put_events (current?_some held) rfl

theorem markRemoved_events (t : FileTable) (path : String) : SameEvents (t.markRemoved path) t := by
  unfold markRemoved
  cases held : t.get? path with
  | none => exact fun _ => rfl
  | some e => exact put_events held rfl

theorem abandon_events (t : FileTable) (path : String) (generation : Nat) :
    SameEvents (t.abandon path generation) t := by
  unfold abandon
  cases held : t.current? path generation with
  | none => exact fun _ => rfl
  | some e =>
      by_cases busy : e.status.inProgress
      · simp only [busy, if_true]
        exact put_events (current?_some held) rfl
      · simp only [busy]
        exact fun _ => rfl

/-- A failure is noted without a new event; it is not noted when a later event came in. -/
theorem fail_ok {backoff : Backoff} {now : Instant} {kind : FailureKind} {error contentHash : String}
    {change : FileChange} {failure : Option Failure} {after : FileTable}
    (h : t.fail backoff now generation kind error change contentHash = .ok (failure, after)) :
    (failure = none → t.isCurrent change.path generation = false) ∧ SameEvents after t := by
  unfold fail at h
  cases held : t.current? change.path generation with
  | none =>
      rw [held] at h
      cases h
      exact ⟨fun _ => current?_none held, fun _ => rfl⟩
  | some e =>
      simp only [held, bind, Except.bind, pure, Except.pure] at h
      split at h
      · split at h
        · cases h
        · cases h
          exact ⟨nofun, put_events (current?_some held) rfl⟩
      · cases h
        exact ⟨nofun, put_events (current?_some held) rfl⟩

end

end CodeSearch.FileTable

/-! ## Generations

The generation of an event tells it from all other events for its path, whatever is done with the
table, as long as the table does not forget the path. A pruning forgets every path that stands as
unindexed. When an event for such a path waits to be worked on, its generation is current no more,
and the next event for the path gets the same one.
-/

namespace CodeSearch.FileTable

open Time (Instant)

/-- What is done with the table of files. -/
inductive Action where
  | begin (path : String)
  | enter (path : String) (generation : Nat) (stage : Stage)
  | markIndexed (path : String) (generation : Nat)
  | fail (backoff : Backoff) (now : Instant) (generation : Nat) (kind : FailureKind)
      (error : String) (change : FileChange) (contentHash : String)
  | markRemoved (path : String)
  | abandon (path : String) (generation : Nat)
  /-- The content to try again is read. -/
  | due (now : Instant)
  | prune
  deriving Inhabited

/-- The table after an action. A failure for which no date can be given is not noted. -/
def act (t : FileTable) : Action → FileTable
  | .begin path => (t.begin path).2
  | .enter path generation stage => (t.enter path generation stage).2
  | .markIndexed path generation => t.markIndexed path generation
  | .fail backoff now generation kind error change contentHash =>
    match t.fail backoff now generation kind error change contentHash with
    | .ok (_, after) => after
    | .error _ => t
  | .markRemoved path => t.markRemoved path
  | .abandon path generation => t.abandon path generation
  | .due _ => t
  | .prune => t.prune.2

/-- Whether an action is an event for a path. -/
def Action.begins (path : String) : Action → Bool
  | .begin other => other == path
  | _ => false

/-- A path is not forgotten: no pruning finds it standing as unindexed. -/
def Spares (path : String) (t : FileTable) : Action → Prop
  | .prune => t.status path ≠ some .unindexed
  | _ => True

section

variable {t : FileTable} {path : String}

/-- A pruning keeps what it knows of a path that does not stand as unindexed. -/
theorem get?_prune (kept : t.status path ≠ some .unindexed) : t.prune.2.get? path = t.get? path := by
  refine Keyed.get?_filter t.entries fun e held => ?_
  have standing : t.status path = some e.status := by
    rw [status, get?, held, Option.map_some]
  rw [standing] at kept
  simpa using fun same : e.status = .unindexed => kept (congrArg some same)

/-- Only an event changes the generation of a path, by one. -/
theorem generation?_act {generation : Nat} (known : t.generation? path = some generation)
    {a : Action} (spared : Spares path t a) :
    (t.act a).generation? path = some (generation + if a.begins path then 1 else 0) := by
  have same {after : FileTable} (events : after.SameEvents t) :
      after.generation? path = some (generation + 0) := (events path).trans known
  cases a with
  | begin other =>
      simp only [act, Action.begins, generation?_begin, beq_iff_eq]
      by_cases here : path = other
      · obtain ⟨e, held, rfl⟩ := Option.map_eq_some_iff.mp known
        simp [FileTable.begin, ← here, held]
      · simpa [here, Ne.symm here] using known
  | enter other g stage => exact same (enter_events t other g stage)
  | markIndexed other g => exact same (markIndexed_events t other g)
  | fail backoff now g kind error change contentHash =>
      simp only [act, Action.begins]
      split
      · rename_i noted
        exact same (fail_ok noted).2
      · exact known
  | markRemoved other => exact same (markRemoved_events t other)
  | abandon other g => exact same (abandon_events t other g)
  | due now => exact known
  | prune =>
      have kept : t.prune.2.generation? path = t.generation? path :=
        congrArg (Option.map FileEntry.generation) (get?_prune spared)
      exact kept.trans known

/-- As long as a path is not forgotten, its generation counts its events. -/
theorem generation?_foldl_act {generation : Nat} (known : t.generation? path = some generation)
    {later : List Action} (spared : Along act (Spares path) t later) :
    (later.foldl act t).generation? path = some (generation + later.countP (·.begins path)) := by
  induction later generalizing t generation with
  | nil => exact known
  | cons a rest ih =>
      rw [List.foldl_cons, ih (generation?_act known spared.1) spared.2, List.countP_cons]
      congr 1
      omega

theorem countP_begins_eq_zero {later : List Action} :
    later.countP (·.begins path) = 0 ↔ .begin path ∉ later := by
  rw [List.countP_eq_zero]
  constructor
  · intro none inside
    exact none _ inside (beq_self_eq_true path)
  · rintro absent a inside begins
    cases a with
    | begin other =>
        cases eq_of_beq begins
        exact absent inside
    | enter | markIndexed | fail | markRemoved | abandon | due | prune => cases begins

/-- As long as a path is not forgotten, the generation that an event for it was given is current
    exactly until the next event for it. So a later event is never taken for it, and it is not taken
    for superseded before one. -/
theorem isCurrent_iff_no_later_event (t : FileTable) (path : String) (later : List Action)
    (spared : Along act (Spares path) (t.begin path).2 later) :
    (later.foldl act (t.begin path).2).isCurrent path (t.begin path).1 = true ↔
      .begin path ∉ later := by
  have given : (t.begin path).2.generation? path = some (t.begin path).1 := by
    rw [generation?_begin, if_pos rfl]
  rw [isCurrent_iff, generation?_foldl_act given spared, ← countP_begins_eq_zero]
  simp

/-- A path that is worked on is not forgotten. -/
theorem isCurrent_while_parsing :
    Along act (Spares "a.py") (begin {} "a.py").2
        [.enter "a.py" 1 .parsing, .prune, .begin "b.py"] ∧
      ([Action.enter "a.py" 1 .parsing, .prune, .begin "b.py"].foldl act
        (begin {} "a.py").2).isCurrent "a.py" (begin {} "a.py").1 = true := by
  have standing : ((begin {} "a.py").2.act (.enter "a.py" 1 .parsing)).status "a.py" ≠
      some .unindexed := by decide
  have spared : Along act (Spares "a.py") (begin {} "a.py").2
      [.enter "a.py" 1 .parsing, .prune, .begin "b.py"] := ⟨trivial, standing, trivial, trivial⟩
  exact ⟨spared, (isCurrent_iff_no_later_event {} "a.py" _ spared).mpr (by simp)⟩

/-! ## What a pruning forgets -/

/-- After a pruning that finds a path standing as unindexed, no event for it is current. -/
theorem isCurrent_prune_of_unindexed (distinct : (Keyed.keys t.entries).Nodup)
    (standing : t.status path = some .unindexed) (generation : Nat) :
    t.prune.2.isCurrent path generation = false := by
  have gone : t.prune.2.get? path = none := by
    refine Keyed.get?_eq_none.mpr fun inside => ?_
    obtain ⟨⟨key, e⟩, kept, rfl⟩ := List.mem_map.mp inside
    obtain ⟨held, busy⟩ := List.mem_filter.mp kept
    rw [status, get?, Keyed.get?_of_mem distinct held, Option.map_some] at standing
    exact bne_iff_ne.mp busy (Option.some.inj standing)
  rw [isCurrent, gone, Option.any_none]

/-- An event for a new path waits when the table is pruned: its generation is current no more,
    though it is the latest one, and current again after a later event. -/
theorem waiting_event_forgotten :
    (Action.begin "a.py" ∉ [Action.prune] ∧
      ([Action.prune].foldl act (begin {} "a.py").2).isCurrent "a.py" (begin {} "a.py").1 = false) ∧
    (Action.begin "a.py" ∈ [Action.prune, .begin "a.py"] ∧
      ([Action.prune, .begin "a.py"].foldl act (begin {} "a.py").2).isCurrent "a.py"
        (begin {} "a.py").1 = true) := by
  refine ⟨⟨by simp, by decide⟩, by simp, by decide⟩

end

end CodeSearch.FileTable

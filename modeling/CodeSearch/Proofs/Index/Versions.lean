import CodeSearch.Proofs.Index.Recovery
import CodeSearch.Proofs.Index.Turns
import Mathlib.Data.List.Induction

/-! # Versions

Each commit of a path gives it the version after the one that is held, and nothing else gives it
another. So the reports of the passes over a path tell which version is held, and versions grow from
commit to commit. A removal forgets the version: what is committed after it starts anew with
version 1.
-/

namespace CodeSearch

open Time (Instant)

/-- The version that is held of a path. -/
def IndexState.version? (s : IndexState) (path : String) : Option Nat :=
  (s.unit? path).map (·.unit.version)

/-- The version of a commit, when a version was held before. -/
def nextVersion (held : Option Nat) : Nat :=
  held.elim 1 (· + 1)

/-! ## What reports tell -/

/-- The version that is held after a pass has ended, when a version was held before. -/
def versionAfter (held : Option Nat) : Except PassError Ack → Option Nat
  | .ok ack =>
    match ack.outcome with
    | .indexed _ => ack.version
    | .removed _ => none
    | _ => held
  | .error _ => held

/-- What the report of a pass tells of the version that was held before. -/
def TellsVersion (held : Option Nat) : Except PassError Ack → Prop
  | .ok ack =>
    match ack.outcome with
    | .indexed _ => ack.version = some (nextVersion held)
    | .unchanged => ack.version = held ∧ held.isSome = true
    | .notIndexed => ack.version = none ∧ held = none
    | .removed _ | .superseded => ack.version = none
  | .error _ => True

/-- Each of some passes that ended one after the other tells of the version that the ones before
    left. -/
def TellVersions : Option Nat → List (Except PassError Ack) → Prop
  | _, [] => True
  | held, r :: rest => TellsVersion held r ∧ TellVersions (versionAfter held r) rest

/-- How the passes over a path end, in the order in which they do so. -/
def Session.results (path : String) (s : Session) (turns : List Turn) :
    List (Except PassError Ack) :=
  s.log (Pass.over path Pass.ends?) turns

/-- Whether a pass has committed or removed its file, and did not report it yet. -/
def Phase.unreported : Phase → Bool
  | .marking _ | .clearing _ => true
  | _ => false

/-! ## What a pass knows of the version -/

/-- Where a pass stands that has its path, when the reports so far tell of one version and the index
    holds another. The two differ only between what the pass did and its report. -/
def Phase.Fits (held now : Option Nat) : Phase → Prop
  | .begun _ | .waiting _ => True
  | .admitted _ | .removing => now = held
  | .confirming version => now = held ∧ held = some version
  | .beforeParsing job | .parsing job | .beforeExtracting job _ | .extracting job _ =>
    now = held ∧ job.unit.version = nextVersion held
  | .beforeEmbedding plan | .embedding plan _ | .beforeCommit plan _ | .committing plan _ =>
    now = held ∧ plan.job.unit.version = nextVersion held
  | .marking plan => now = some plan.job.unit.version ∧ plan.job.unit.version = nextVersion held
  | .clearing outcome =>
    now = none ∧ (outcome = .notIndexed ∧ held = none ∨ ∃ symbols, outcome = .removed symbols)
  | .ended result => now = versionAfter held result ∧ TellsVersion held result

namespace IndexState

theorem version?_congr {s t : IndexState} {path : String} (same : t.unit? path = s.unit? path) :
    t.version? path = s.version? path := by
  rw [version?, version?, same]

theorem version?_replaceUnit (s : IndexState) {u : UnitUpdate} {path : String}
    (own : path = u.unit.path) : (s.replaceUnit u).version? path = some u.unit.version := by
  rw [version?, unit?_replaceUnit, if_pos own]
  rfl

theorem version?_removeUnit (s : IndexState) (path : String) :
    (s.removeUnit path).2.version? path = none := by
  rw [version?, unit?_removeUnit, if_pos rfl, Option.map_none]

/-- To drop stale symbols leaves the versions as they are, be the index consistent or not. -/
theorem version?_pruneStale (s : IndexState) (path : String) :
    s.pruneStale.2.version? path = s.version? path := by
  rw [pruneStale_eq_tidied, version?, unit?_tidied, unit?_swept, Option.map_map]
  rfl

end IndexState

namespace Pass

section

variable {w after : CodeIndex} {p : Pass} {held : Option Nat}

theorem fits_supersede (same : after.state.version? p.path = held) :
    (p.supersede after).2.phase.Fits held ((p.supersede after).1.state.version? p.path) :=
  ⟨same, rfl⟩

theorem fits_fail (same : after.state.version? p.path = held) (job : Job) (cause : IndexError) :
    (p.fail after job cause).2.phase.Fits held ((p.fail after job cause).1.state.version? p.path) := by
  unfold fail
  split
  · exact ⟨same, trivial⟩
  · split
    · exact ⟨same, trivial⟩
    · exact fits_supersede same
    · exact ⟨same, trivial⟩

theorem fits_enter (same : after.state.version? p.path = held) (stage : Stage) {phase : Phase}
    (fits : phase.Fits held held) :
    (p.enter after stage phase).2.phase.Fits held
      ((p.enter after stage phase).1.state.version? p.path) := by
  unfold enter
  split
  · rw [← same] at fits ⊢
    exact fits
  · exact fits_supersede same

theorem fits_identify (same : w.state.version? p.path = held) (change : FileChange) :
    (p.identify w change).2.phase.Fits held ((p.identify w change).1.state.version? p.path) := by
  subst same
  unfold identify
  split
  · exact ⟨rfl, trivial⟩
  · rename_i language resolved
    have version : (jobOf w p.path change language).unit.version =
        nextVersion (w.state.version? p.path) := by
      simp only [jobOf, nextUnit, held?, IndexState.version?, nextVersion]
      cases w.state.unit? p.path with
      | none => rfl
      | some entry => rfl
    simp only
    split
    · rename_i entry found
      split
      · refine ⟨rfl, ?_⟩
        rw [IndexState.version?, found, Option.map_some]
      · exact ⟨rfl, version⟩
    · exact ⟨rfl, version⟩

/-- A step of a pass that has its path keeps what it knows of the version, and reports it truly. -/
theorem step_fits {request : Request} (path : p.path = request.path)
    (asked : p.phase.Asked w.registered request)
    (first : p.phase.role = .early → p.holdsLock w = true → w.state.version? p.path = held)
    (fits : p.phase.Fits held (w.state.version? p.path)) :
    (p.step w).2.phase.Fits held ((p.step w).1.state.version? p.path) := by
  cases standing : p.phase with
  | begun r =>
      simp only [step, standing]
      trivial
  | waiting r =>
      rw [standing] at first
      simp only [step, standing]
      split
      · exact standing ▸ trivial
      · rename_i holds
        have same := first rfl (by simpa using holds)
        split
        · exact fits_supersede same
        · cases r with
          | index change => exact same
          | remove path => exact same
  | admitted change =>
      rw [standing] at fits
      simp only [step, standing]
      exact fits_identify fits change
  | confirming version =>
      rw [standing] at fits
      obtain ⟨same, known⟩ := fits
      simp only [step, standing]
      exact ⟨same, known.symm, by rw [known]; rfl⟩
  | beforeParsing job =>
      rw [standing] at fits
      simp only [step, standing]
      exact fits
  | parsing job =>
      rw [standing] at fits
      simp only [step, standing]
      split
      · exact fits_fail (by exact fits.1) _ _
      · exact fits
  | beforeExtracting job parsed =>
      rw [standing] at fits
      simp only [step, standing]
      exact fits_enter fits.1 _ ⟨rfl, fits.2⟩
  | extracting job parsed =>
      rw [standing] at fits
      simp only [step, standing]
      split
      · exact fits_fail (by exact fits.1) _ _
      · exact fits
  | beforeEmbedding plan =>
      rw [standing] at fits
      simp only [step, standing]
      split
      · exact fits_enter fits.1 _ ⟨rfl, fits.2⟩
      · exact fits_enter fits.1 _ ⟨rfl, fits.2⟩
  | embedding plan kept =>
      rw [standing] at fits
      simp only [step, standing, embed]
      split
      · exact fits_fail (by exact fits.1) _ _
      · exact fits
  | beforeCommit plan records =>
      rw [standing] at fits
      simp only [step, standing]
      split
      · exact fits
      · exact fits_supersede fits.1
  | committing plan records =>
      rw [standing] at fits asked
      have place : p.path = plan.job.unit.path := (asked.path.trans (asked.place path)).symm
      have known := IndexState.commit_cases w.state (plan.update records)
      simp only [step, standing]
      generalize w.state.commit (plan.update records) = result at known ⊢
      cases known with
      | invalid cause => exact fits_fail (by exact fits.1) _ _
      | refused cause vectors _ _ => exact fits_fail (by exact fits.1) _ _
      | replaced vectors _ _ =>
          exact ⟨IndexState.version?_replaceUnit _ place, fits.2⟩
  | marking plan =>
      rw [standing] at fits
      obtain ⟨same, version⟩ := fits
      simp only [step, standing]
      exact ⟨same, congrArg some version⟩
  | removing =>
      rw [standing] at fits
      simp only [step, standing, remove]
      refine ⟨w.state.version?_removeUnit p.path, ?_⟩
      cases found : w.state.unit? p.path with
      | none =>
          rw [IndexState.removeUnit_absent found]
          refine .inl ⟨rfl, fits.symm.trans ?_⟩
          rw [IndexState.version?, found, Option.map_none]
      | some entry =>
          rw [IndexState.removeUnit_held found]
          exact .inr ⟨_, rfl⟩
  | clearing outcome =>
      rw [standing] at fits
      obtain ⟨gone, ⟨rfl, none⟩ | ⟨symbols, rfl⟩⟩ := fits
      · simp only [step, standing]
        exact ⟨gone.trans none.symm, rfl, none⟩
      · simp only [step, standing]
        exact ⟨gone, rfl⟩
  | ended result =>
      rw [standing] at fits
      simp only [step, standing]
      exact standing ▸ fits

end

/-- A pass is early, active, or has ended. -/
theorem role_cases (p : Pass) : p.phase.role = .early ∨ p.Active ∨ p.Ended := by
  cases standing : p.phase with
  | begun | waiting => exact .inl rfl
  | confirming | marking | clearing => exact .inr (.inl (.inr ⟨_, congrArg Phase.role standing⟩))
  | ended result => exact .inr (.inr ⟨result, standing⟩)
  | _ => exact .inr (.inl (.inl (congrArg Phase.role standing)))

end Pass

/-- A pass that is early after a step was so before. -/
theorem Taken.still_early {w : CodeIndex} {request : Request} {p : Pass} {taken : CodeIndex × Pass}
    (t : Taken w request p taken) (early : taken.2.phase.role = .early) :
    p.phase.role = .early := by
  cases t with
  | idle => exact early
  | queued standing => exact congrArg Phase.role standing
  | admitted phase standing => exact congrArg Phase.role standing
  | worked after phase _ _ role | settled after phase outcome _ _ _ role =>
      rw [show (p.goOn after phase).2.phase.role = _ from role] at early
      cases early
  | finished after result => cases early

namespace Session

/-- The reports of a path so far tell of a version. It is the one that the index holds, except as
    the pass that has the path knows. -/
structure Versioned (path : String) (held : Option Nat) (s : Session) : Prop where
  lined : s.Lined
  fits : ∀ p, s.Over path p → p.Active → p.phase.Fits held (s.index.state.version? path)
  idle : (∀ p, s.Over path p → ¬p.Active) → s.index.state.version? path = held

section

variable {s after : Session} {path : String} {held : Option Nat}

theorem Versioned.carry (h : Versioned path held s) (lined : after.Lined)
    (version : after.index.state.version? path = s.index.state.version? path)
    (passes : ∀ p, after.Over path p ↔ s.Over path p) : Versioned path held after := by
  refine ⟨lined, fun p ofPath active => ?_, fun none => ?_⟩
  · rw [version]
    exact h.fits p ((passes p).mp ofPath) active
  · rw [version]
    exact h.idle fun p ofPath => none p ((passes p).mpr ofPath)

theorem Versioned.begun {request : Request} (h : Versioned request.path held s) :
    Versioned request.path held (s.begin request) := by
  refine ⟨h.lined.begin request, fun p ofPath active => ?_, fun none => ?_⟩
  · rcases over_begin ofPath with ⟨rfl, -⟩ | old
    · exact absurd rfl active.role.1
    · exact h.fits p old active
  · exact h.idle fun p ofPath => none p (h.lined.toAnswering.over_begun request ofPath)

/-- A pass that does not have its path yet changes no version. -/
theorem Stepping.version_early {request : Request} {p : Pass} {note : Note} {phase : Phase}
    (step : Stepping s request p note phase) (early : p.phase.role = .early) :
    (p.step s.index).1.state.version? p.path = s.index.state.version? p.path := by
  refine IndexState.version?_congr (step.beside.unit.resolve_right fun effect => ?_)
  have working := (Phase.takesEffect_roles effect).1
  rw [early] at working
  cases working

theorem Versioned.fits_step {request : Request} {p : Pass} {note : Note} {phase : Phase}
    (h : Versioned p.path held s) (step : Stepping s request p note phase)
    (unended : ∀ result, p.phase.role ≠ .ended result) :
    (p.step s.index).2.phase.Fits held ((p.step s.index).1.state.version? p.path) := by
  have here : s.Over p.path p := ⟨p.number, request, step.held, rfl⟩
  refine p.step_fits (h.lined.path _ _ _ step.held) (h.lined.asked _ _ _ step.held)
    (fun early holds => h.idle ?_) ?_
  · -- the pass takes the path now, so that nobody has it
    rintro q ⟨m, r, heldQ, place⟩ active
    obtain rfl := h.lined.alone step.held heldQ unended holds place.symm active
    cases Option.some.inj (step.held.symm.trans heldQ)
    exact active.role.1 early
  · rcases p.role_cases with early | active | ⟨result, ended⟩
    · cases standing : p.phase with
      | begun | waiting => trivial
      | _ =>
          rw [standing] at early
          cases early
    · exact h.fits p here active
    · exact absurd (congrArg Phase.role ended) (unended result)

theorem Versioned.stepped {request : Request} {p : Pass} {note : Note} {phase : Phase}
    (h : Versioned p.path held s) (step : Stepping s request p note phase) :
    (∀ r, p.ends? s.index = some r → TellsVersion held r) ∧
      Versioned p.path ((p.ends? s.index).elim held (versionAfter held))
        (s.advanced request p (p.step s.index)) := by
  have lined := h.lined.advanced step.held step.taken
  cases goesOn : p.phase.result? with
  | some result =>
      have standing := Phase.result?_eq_some.mp goesOn
      have still : p.step s.index = (s.index, p) := by simp only [Pass.step, standing]
      have silent : p.ends? s.index = none := by rw [Pass.ends?, goesOn]
      rw [silent]
      refine ⟨fun _ same => (by cases same), h.carry lined (by rw [still]; rfl) fun q =>
        ⟨fun ofPath => ?_, fun ofPath => ?_⟩⟩
      · rcases over_advanced ofPath step.beside with ⟨rfl, -⟩ | ⟨m, r, -, heldQ, place⟩
        · rw [still]
          exact ⟨p.number, request, step.held, rfl⟩
        · exact ⟨m, r, heldQ, place⟩
      · rcases over_remains step.held ofPath with rfl | remains
        · have self := over_self request step.beside
          rwa [still] at self ⊢
        · exact remains
  | none =>
      have unended := Phase.result?_eq_none.mp goesOn
      have ends : p.ends? s.index = (p.step s.index).2.phase.result? := by rw [Pass.ends?, goesOn]
      have fits := h.fits_step step unended
      have alone {q : Pass} {m : Nat} {r : Request} (different : m ≠ p.number)
          (heldQ : s.Has m r q) (place : q.path = p.path) (active : q.Active) :
          p.phase.role = .early ∧ ¬p.holdsLock s.index = true := by
        have free (holds : p.holdsLock s.index = true) : False :=
          different (h.lined.alone step.held heldQ unended holds place.symm active).symm
        rcases p.role_cases with early | act | ⟨result, ended⟩
        · exact ⟨early, free⟩
        · exact (free ((h.lined.lined _ _ _ step.held).holds act)).elim
        · exact absurd (congrArg Phase.role ended) (unended result)
      rw [ends]
      cases after : (p.step s.index).2.phase.result? with
      | some result =>
          have ended := Phase.result?_eq_some.mp after
          rw [ended] at fits
          obtain ⟨version, tells⟩ := fits
          refine ⟨fun r same => Option.some.inj same ▸ tells, lined, fun q ofPath active => ?_,
            fun _ => version⟩
          rcases over_advanced ofPath step.beside with ⟨rfl, -⟩ | ⟨m, r, different, heldQ, place⟩
          · exact absurd (congrArg Phase.role ended) (active.role.2 result)
          · obtain ⟨early, free⟩ := alone different heldQ place active
            rcases step.taken.early early with stays | holds
            · rw [ended] at stays
              cases stays
            · exact absurd holds free
      | none =>
          refine ⟨fun _ same => (by cases same), lined, fun q ofPath active => ?_, fun none => ?_⟩
          · rcases over_advanced ofPath step.beside with ⟨rfl, -⟩ | ⟨m, r, different, heldQ, place⟩
            · exact fits
            · obtain ⟨early, -⟩ := alone different heldQ place active
              have same := step.version_early early
              exact same.symm ▸ h.fits q ⟨m, r, heldQ, place⟩ active
          · have self := over_self request step.beside
            have early : p.phase.role = .early := by
              refine step.taken.still_early ?_
              rcases (p.step s.index).2.role_cases with early | active | ⟨result, ended⟩
              · exact early
              · exact absurd active (none _ self)
              · exact absurd (congrArg Phase.role ended) (Phase.result?_eq_none.mp after result)
            refine (step.version_early early).trans (h.idle fun q ofPath active => ?_)
            rcases over_remains step.held ofPath with rfl | remains
            · exact active.role.1 early
            · exact none q remains active

theorem Versioned.turn (h : Versioned path held s) (t : Turn) :
    (∀ r, s.seen (Pass.over path Pass.ends?) t = some r → TellsVersion held r) ∧
      Versioned path ((s.seen (Pass.over path Pass.ends?) t).elim held (versionAfter held))
        (s.turn t) := by
  cases t with
  | sweep part =>
      refine ⟨fun _ same => (nomatch same), h.carry (h.lined.sweep part) ?_ fun _ => Iff.rfl⟩
      cases part with
      | symbols => exact s.index.state.version?_pruneStale path
      | paths | locks => rfl
  | move m =>
      rcases h.lined.seen_cases Pass.ends? m path with
        ⟨same, unseen⟩ | ⟨request, rfl, rfl⟩ | ⟨_, p, _, _, step, rfl, moved, -, seen⟩
      · rw [unseen]
        exact ⟨fun _ same => (nomatch same),
          h.carry (h.lined.move m) (IndexState.version?_congr same.unit) same.passes⟩
      · exact ⟨fun _ same => (nomatch same), h.begun⟩
      · rw [seen, Session.turn, moved]
        exact h.stepped step

theorem Versioned.turnAll (h : Versioned path held s) (turns : List Turn) :
    TellVersions held (s.results path turns) ∧
      Versioned path ((s.results path turns).foldl versionAfter held) (s.turnAll turns) := by
  induction turns generalizing s held with
  | nil => exact ⟨trivial, h⟩
  | cons t rest ih =>
      obtain ⟨tells, after⟩ := h.turn t
      obtain ⟨later, kept⟩ := ih after
      simp only [results, log] at later kept ⊢
      cases seen : s.seen (Pass.over path Pass.ends?) t with
      | none =>
          rw [seen] at later kept
          exact ⟨later, kept⟩
      | some r =>
          rw [seen] at later kept
          exact ⟨⟨tells r seen, later⟩, kept⟩

/-- Unless a pass is between what it did and its report, the index holds the version that the
    reports tell of. -/
theorem Versioned.reported (h : Versioned path held s)
    (reported : ∀ p, s.Over path p → p.phase.unreported = false) :
    s.index.state.version? path = held := by
  by_cases busy : ∃ p, s.Over path p ∧ p.Active
  · obtain ⟨p, ofPath, active⟩ := busy
    have fits := h.fits p ofPath active
    have told := reported p ofPath
    cases standing : p.phase with
    | marking | clearing =>
        rw [standing] at told
        cases told
    | begun | waiting => exact absurd (congrArg Phase.role standing) active.role.1
    | ended result => exact absurd (congrArg Phase.role standing) (active.role.2 result)
    | admitted | removing =>
        rw [standing] at fits
        exact fits
    | _ =>
        rw [standing] at fits
        exact fits.1
  · exact h.idle fun p ofPath active => busy ⟨p, ofPath, active⟩

end

end Session

/-! ## From commit to commit -/

/-- The version of a commit. -/
def committed? : Except PassError Ack → Option Nat
  | .ok ack =>
    match ack.outcome with
    | .indexed _ => ack.version
    | _ => none
  | .error _ => none

/-- Whether a file was dropped. -/
def removes : Except PassError Ack → Bool
  | .ok ack =>
    match ack.outcome with
    | .removed _ => true
    | _ => false
  | .error _ => false

section

variable {held : Option Nat} {before after : List (Except PassError Ack)}
variable {r : Except PassError Ack} {results : List (Except PassError Ack)}

theorem TellVersions.append (h : TellVersions held (before ++ after)) :
    TellVersions held before ∧ TellVersions (before.foldl versionAfter held) after := by
  induction before generalizing held with
  | nil => exact ⟨trivial, h⟩
  | cons r rest ih =>
      obtain ⟨first, later⟩ := ih h.2
      exact ⟨⟨h.1, first⟩, later⟩

/-- A pass that ends has committed the next version, or left the version, or removed it. -/
theorem TellsVersion.cases (tells : TellsVersion held r) :
    (committed? r = some (nextVersion held) ∧ versionAfter held r = some (nextVersion held)) ∨
      (committed? r = none ∧ versionAfter held r = held) ∨
      (committed? r = none ∧ versionAfter held r = none ∧ removes r = true) := by
  cases r with
  | error cause => exact .inr (.inl ⟨rfl, rfl⟩)
  | ok ack =>
      simp only [TellsVersion] at tells
      simp only [committed?, versionAfter, removes]
      cases outcome : ack.outcome with
      | indexed counts =>
          rw [outcome] at tells
          exact .inl ⟨tells, tells⟩
      | removed symbols => exact .inr (.inr ⟨rfl, rfl, rfl⟩)
      | unchanged | notIndexed | superseded => exact .inr (.inl ⟨rfl, rfl⟩)

/-- As long as nothing is removed, each version that is committed is greater than those before. -/
theorem TellVersions.increasing (h : TellVersions held results)
    (kept : ∀ r ∈ results, removes r = false) :
    (∀ version, held = some version → ∀ later ∈ results.filterMap committed?, version < later) ∧
      (results.filterMap committed?).Pairwise (· < ·) := by
  induction results generalizing held with
  | nil => exact ⟨fun _ _ _ inside => (nomatch inside), .nil⟩
  | cons r rest ih =>
      obtain ⟨above, increasing⟩ := ih h.2 fun q inside => kept q (List.mem_cons_of_mem r inside)
      rcases TellsVersion.cases h.1 with ⟨commit, next⟩ | ⟨none, same⟩ | ⟨-, -, removed⟩
      · have later := above _ next
        rw [List.filterMap_cons_some commit]
        refine ⟨?_, List.pairwise_cons.mpr ⟨later, increasing⟩⟩
        rintro version rfl last inside
        rcases List.mem_cons.mp inside with rfl | inRest
        · exact Nat.lt_succ_self version
        · exact Nat.lt_trans (Nat.lt_succ_self version) (later last inRest)
      · rw [List.filterMap_cons_none none]
        rw [same] at above
        exact ⟨above, increasing⟩
      · rw [kept r List.mem_cons_self] at removed
        cases removed

/-- Reports of neither a commit nor a removal leave the version. -/
theorem TellVersions.silent (h : TellVersions held results)
    (silent : ∀ r ∈ results, committed? r = none ∧ removes r = false) :
    results.foldl versionAfter held = held := by
  induction results with
  | nil => rfl
  | cons r rest ih =>
      obtain ⟨uncommitted, unremoved⟩ := silent r List.mem_cons_self
      have same : versionAfter held r = held := by
        rcases TellsVersion.cases h.1 with ⟨commit, -⟩ | ⟨-, same⟩ | ⟨-, -, removed⟩
        · cases uncommitted.symm.trans commit
        · exact same
        · cases unremoved.symm.trans removed
      have later := h.2
      rw [List.foldl_cons, same]
      rw [same] at later
      exact ih later fun q inside => silent q (List.mem_cons_of_mem r inside)

/-- The version that the reports tell of is that of the latest commit. -/
theorem TellVersions.last (h : TellVersions none results) {version : Nat}
    (told : results.foldl versionAfter none = some version) :
    (results.filterMap committed?).getLast? = some version := by
  induction results using List.reverseRecOn with
  | nil => cases told
  | append_singleton earlier r ih =>
      obtain ⟨before, tells, -⟩ := h.append
      rw [List.foldl_append, List.foldl_cons, List.foldl_nil] at told
      rw [List.filterMap_append]
      rcases TellsVersion.cases tells with ⟨commit, next⟩ | ⟨none, same⟩ | ⟨-, gone, -⟩
      · rw [next] at told
        rw [List.filterMap_cons_some commit, List.filterMap_nil, List.getLast?_concat, told]
      · rw [same] at told
        rw [List.filterMap_cons_none none, List.filterMap_nil, List.append_nil]
        exact ih before told
      · rw [gone] at told
        cases told

end

/-- Every pass over a path has reported what it committed or removed. -/
def Session.Reported (path : String) (s : Session) : Prop :=
  ∀ p, s.Over path p → p.phase.unreported = false

/-- What a run makes of the versions of a path. -/
structure VersionsGrow (w : CodeIndex) (path : String) (turns : List Turn) : Prop where
  /-- Each version that is committed is greater than all that were committed before it and after the
      file was last removed. -/
  increasing : ∀ before between after,
    (Session.start w).results path turns = before ++ between ++ after →
    (∀ r ∈ between, removes r = false) → (between.filterMap committed?).Pairwise (· < ·)
  /-- Content that is found unchanged has the version of the latest commit. -/
  unchanged : ∀ before ack after,
    (Session.start w).results path turns = before ++ .ok ack :: after →
    ack.outcome = .unchanged → ack.version.isSome = true ∧
      ack.version = (before.filterMap committed?).getLast?
  /-- While no pass reports a commit or a removal, the version that is held stays. -/
  failed : ∀ earlier later, turns = earlier ++ later →
    ((Session.start w).turnAll earlier).Reported path →
    ((Session.start w).turnAll turns).Reported path →
    (∀ r ∈ ((Session.start w).turnAll earlier).results path later,
      committed? r = none ∧ removes r = false) →
    ((Session.start w).turnAll turns).index.state.version? path =
      ((Session.start w).turnAll earlier).index.state.version? path

namespace CodeIndex

theorem build_versioned {c : IndexConfig} {parts : IndexParts} {now : Instant} {w : CodeIndex}
    (built : build c parts now = .ok w) (path : String) :
    (Session.start w).Versioned path none := by
  obtain ⟨-, -, state, -, -, locks, -⟩ := build_ok built
  have numbered : w.locks.Numbered := by
    rw [locks]
    exact nofun
  have unheld : (Session.start w).index.state.version? path = none := by
    rw [show (Session.start w).index.state = _ from state]
    rfl
  exact ⟨.start numbered, fun p ofPath => absurd ofPath nofun, fun _ => unheld⟩

/-- However passes and sweeps take turns: between removals of a file, its versions grow from commit
    to commit, content that is found unchanged has the version of the latest commit, and passes that
    fail, are superseded or change nothing leave the version as it was. -/
theorem versions_grow {c : IndexConfig} {parts : IndexParts} {now : Instant} {w : CodeIndex}
    (built : build c parts now = .ok w) (turns : List Turn) (path : String) :
    VersionsGrow w path turns := by
  have start := build_versioned built path
  obtain ⟨tells, kept⟩ := start.turnAll turns
  constructor
  case increasing =>
    intro before between after split unremoved
    rw [split, List.append_assoc] at tells
    exact (tells.append.2.append.1.increasing unremoved).2
  case unchanged =>
    intro before ack after split outcome
    rw [split] at tells
    obtain ⟨earlier, told, -⟩ := tells.append
    simp only [TellsVersion, outcome] at told
    obtain ⟨version, held⟩ := Option.isSome_iff_exists.mp told.2
    rw [told.1, earlier.last held, held]
    exact ⟨rfl, rfl⟩
  case failed =>
    rintro earlier later rfl reportedBefore reportedAfter silent
    have before := (start.turnAll earlier).2.reported reportedBefore
    have whole : (Session.start w).results path (earlier ++ later) =
        (Session.start w).results path earlier ++
          ((Session.start w).turnAll earlier).results path later := Session.log_append ..
    rw [kept.reported reportedAfter, before, whole, List.foldl_append]
    rw [whole] at tells
    exact tells.append.2.silent silent

/-- A pass for each of some requests, one after the other, the first of which has a number. -/
def inTurn : List Request → Nat → List Turn
  | [], _ => []
  | request :: rest, number => (Session.solo request number).map .move ++ inTurn rest (number + 1)

/-- A file is indexed, swept, changed and found unchanged; then a change of it cannot be embedded. -/
def changingRun : List Turn :=
  inTurn [.index (oneFunction "f()")] 0 ++ [.sweep .symbols, .sweep .paths, .sweep .locks] ++
    inTurn [.index (oneFunction "f(x)"), .index (oneFunction "f(x)")] 1 ++
    .move (.provider Recovery.offline) :: inTurn [.index (oneFunction "f(y)")] 3

theorem changingRun_versions_grow :
    VersionsGrow smallIndex "a.py" changingRun ∧
      ((Session.start smallIndex).results "a.py" changingRun).map
        (fun r => r.toOption.bind (·.version)) = [some 1, some 2, some 2, none] ∧
      ((Session.start smallIndex).turnAll changingRun).index.state.version? "a.py" = some 2 :=
  ⟨versions_grow build_small changingRun "a.py", by decide +kernel⟩

/-! ## After a removal -/

/-- A file is indexed, removed, and indexed again. -/
def removingRun : List Turn :=
  inTurn [.index (oneFunction "f()"), .remove "a.py", .index (oneFunction "f()")] 0

/-- Both commits of the file are of its version 1. -/
theorem version_restarts_after_removal :
    ((Session.start smallIndex).results "a.py" removingRun).filterMap committed? = [1, 1] := by
  decide +kernel

end CodeIndex

end CodeSearch

import CodeSearch.Proofs.Along
import CodeSearch.Proofs.Index.Turns

/-! # Trying again

What is due is read at once, and each change that was read begins a pass of its own later. When an
event for a path comes in after the failure, its content prevails over the content that failed, as
long as that was not read before the event, and is not read while the pass of the event is on its
way. Else the content that failed is begun as the later event of the two, and takes over.
-/

namespace CodeSearch

open Time (Instant)

namespace CodeIndex

theorem Reached.tidy {w : CodeIndex} (reached : Reached w) : w.files.Tidy := by
  induction reached with
  | built built =>
      obtain ⟨-, -, -, -, files, -⟩ := build_ok built
      rw [files]
      exact .empty
  | @performed w reached op ih =>
      rcases prune_or_moveAll w op with rfl | ⟨moves, ran⟩
      · exact ih.prune
      · rw [ran]
        exact (Session.Answering.start w).tidy_moveAll ih moves
  | moved reached moves ih => exact (Session.Answering.start _).tidy_moveAll ih moves

end CodeIndex

/-! ## A pass that goes well -/

/-- The pass is that of a change, and has not failed. -/
def Phase.onCourse : Phase → Bool
  | .removing | .clearing _ | .ended (.error _) => false
  | .ended (.ok ack) =>
    match ack.outcome with
    | .removed _ | .notIndexed => false
    | _ => true
  | _ => true

/-- What the pass does next goes well: the change is read in some language, parsed, extracted,
    embedded and written. -/
def Pass.goesWell (w : CodeIndex) (p : Pass) : Bool :=
  match p.phase with
  | .admitted change => (Language.resolve w.registered p.path change.hint).isSome
  | .parsing job => (w.cache.parse w.parseOptions job.change.source job.unit.parseKey).1.isOk
  | .extracting job parsed =>
    (extract? w.registered parsed job.unit w.config.pipeline.snippetChars).isOk
  | .embedding plan _ =>
    (w.embedder.embedChecked "" (plan.toEmbed.map w.config.chunking.text)).isOk
  | .committing plan records => (w.state.commit (plan.update records)).1.isOk
  | _ => true

theorem Embedder.embedChecked_isOk (e : Embedder) (late other : String) (texts : List String) :
    (e.embedChecked late texts).isOk = (e.embedChecked other texts).isOk := by
  unfold embedChecked
  split
  · rfl
  · rfl
  · rfl

theorem Pass.step_onCourse (w : CodeIndex) {p : Pass} {change : FileChange}
    (asked : p.phase.Asked w.registered (.index change)) (onCourse : p.phase.onCourse = true)
    (goesWell : p.goesWell w = true) : (p.step w).2.phase.onCourse = true := by
  have enters (stage : Stage) {phase : Phase} (stays : phase.onCourse = true) :
      (p.enter w stage phase).2.phase.onCourse = true := by
    unfold enter
    split
    · exact stays
    · rfl
  unfold Pass.goesWell at goesWell
  cases standing : p.phase with
  | begun r => simp only [step, standing]; rfl
  | waiting r =>
      rw [standing] at asked
      cases asked
      simp only [step, standing]
      split
      · exact standing ▸ rfl
      · split
        · rfl
        · rfl
  | admitted change =>
      simp only [standing] at goesWell
      obtain ⟨language, resolved⟩ := Option.isSome_iff_exists.mp goesWell
      simp only [step, standing, identify, resolved]
      split
      · split
        · rfl
        · rfl
      · rfl
  | parsing job =>
      simp only [standing] at goesWell
      simp only [step, standing]
      split
      · rename_i refused
        rw [refused] at goesWell
        cases goesWell
      · rfl
  | extracting job parsed =>
      simp only [standing] at goesWell
      simp only [step, standing]
      split
      · rename_i refused
        rw [refused] at goesWell
        cases goesWell
      · rfl
  | embedding plan kept =>
      simp only [standing] at goesWell
      simp only [step, standing, embed]
      split
      · rename_i refused
        rw [Embedder.embedChecked_isOk _ _ _ _, refused] at goesWell
        cases goesWell
      · rfl
  | committing plan records =>
      simp only [standing] at goesWell
      simp only [step, standing]
      split
      · rename_i refused
        rw [refused] at goesWell
        cases goesWell
      · rfl
  | confirming version | marking plan | beforeParsing job => simp only [step, standing]; rfl
  | beforeExtracting job parsed =>
      simp only [step, standing]
      exact enters _ rfl
  | beforeEmbedding plan =>
      simp only [step, standing]
      split
      · exact enters _ rfl
      · exact enters _ rfl
  | beforeCommit plan records =>
      simp only [step, standing]
      split
      · rfl
      · rfl
  | removing | clearing outcome =>
      rw [standing] at onCourse
      cases onCourse
  | ended result =>
      simp only [step, standing]
      rw [← standing]
      exact onCourse

/-! ## The last event for a path -/

namespace Session

/-- The last pass over the path of a change is that of the change. It goes well, and when it has
    ended, the path does not stand as failed. -/
structure Prevails (number : Nat) (change : FileChange) (s : Session) : Prop where
  orderly : s.Orderly
  tidy : s.index.files.Tidy
  pass : ∃ p, s.Has number (.index change) p ∧ s.IsLast p ∧ p.phase.onCourse = true ∧
    (p.Ended → ∀ e, s.index.files.get? change.path = some e → e.status.isFailed = false)

section

variable {s : Session} {number : Nat} {change : FileChange}

theorem Orderly.last_isLatest (h : Orderly s) {request : Request} {p : Pass}
    (held : s.Has number request p) (last : s.IsLast p) : p.isLatest s.index = true := by
  obtain ⟨other, r, q, heldQ, place, known, before⟩ := h.latest number request p held
  rw [Pass.isLatest_iff, known, Nat.le_antisymm before (last other r q heldQ place)]

theorem Prevails.begun (orderly : s.Orderly) (tidy : s.index.files.Tidy) (change : FileChange) :
    Prevails s.index.passes change (s.begin (.index change)) := by
  refine ⟨orderly.begin _, tidy.begin _, _, s.begin_has_new _, ?_, rfl, nofun⟩
  intro number r q held place
  rcases s.has_begin _ held with ⟨-, -, rfl⟩ | ⟨-, old⟩
  · exact Nat.le_refl _
  · exact Nat.le_of_lt (orderly.lt_start old place)

theorem Prevails.begin (h : Prevails number change s) {request : Request}
    (elsewhere : request.path ≠ change.path) : Prevails number change (s.begin request) := by
  obtain ⟨p, held, last, onCourse, unfailed⟩ := h.pass
  have place : p.path = change.path := (h.orderly.standing _ _ _ held).path
  refine ⟨h.orderly.begin request, h.tidy.begin _, p, h.orderly.answering.begin_has request held, ?_,
    onCourse, fun ended e known => unfailed ended e ?_⟩
  · intro m r q heldQ same
    rcases s.has_begin _ heldQ with ⟨-, -, rfl⟩ | ⟨-, old⟩
    · exact absurd (same.trans place) elsewhere
    · exact last m r q old same
  · exact (Keyed.get?_put_of_ne _ _ elsewhere.symm).symm.trans known

/-- What the last pass over a path leaves when it ends well is noted as indexed. -/
theorem Stepping.unfailed {request : Request} {p : Pass} {note : Note} {phase : Phase}
    (step : Stepping s request p note phase) (latest : p.isLatest s.index = true)
    (onCourse : p.phase.onCourse = true) (stays : phase.onCourse = true)
    (unfailed : p.Ended → ∀ e, s.index.files.get? p.path = some e → e.status.isFailed = false)
    (ended : ∃ result, phase = .ended result) {e : FileEntry}
    (known : s.index.files.get? p.path = some e) : (note.on e).status.isFailed = false := by
  cases step.noting with
  | idle => exact unfailed ended e known
  | indexed => rfl
  | goesOn _ _ stands | entered _ _ _ _ stands =>
      obtain ⟨result, same⟩ := ended
      exact absurd same (stands result)
  | superseded _ _ _ late | refused _ _ late | unnoted _ _ late =>
      rw [latest] at late
      cases late
  | brokeDown | abandoned | failed => cases stays
  | removed _ clears =>
      cases standing : p.phase with
      | clearing outcome =>
          rw [standing] at onCourse
          cases onCourse
      | _ =>
          rw [standing] at clears
          cases clears

/-- A pass that is not the latest notes no failure. -/
theorem Stepping.late_unfailed {request : Request} {p : Pass} {note : Note} {phase : Phase}
    (step : Stepping s request p note phase) (late : p.isLatest s.index = false) {e : FileEntry}
    (unfailed : e.status.isFailed = false) : (note.on e).status.isFailed = false := by
  cases step.noting with
  | idle | goesOn | superseded | brokeDown | refused | unnoted => exact unfailed
  | removed => rfl
  | abandoned _ _ latest | entered _ _ _ latest | failed _ _ _ _ latest | indexed _ _ latest =>
      rw [late] at latest
      cases latest

theorem IsLast.advanced {request : Request} {p p' q : Pass} {note : Note} {phase : Phase}
    (last : s.IsLast p) (step : Stepping s request q note phase) (path : p'.path = p.path)
    (generation : p'.generation = p.generation) :
    (s.advanced request q (q.step s.index)).IsLast p' := by
  intro m r other' held place
  obtain ⟨other, old, samePath, sameGeneration, -⟩ := has_before step.held step.beside held
  rw [generation, sameGeneration]
  exact last m r other old (samePath.symm.trans (place.trans path))

theorem Prevails.step (h : Prevails number change s) (m : Nat)
    (well : m = number → ∀ p, s.Has number (.index change) p → p.goesWell s.index = true) :
    Prevails number change (s.step m) := by
  have orderly := h.orderly.step m
  have tidy := h.orderly.answering.tidy_move h.tidy (.step m)
  refine ⟨orderly, tidy, ?_⟩
  obtain ⟨p, held, last, onCourse, unfailed⟩ := h.pass
  rcases h.orderly.answering.step_cases m with still | ⟨request, q, rfl, found, taken⟩
  · rw [still]
    exact ⟨p, held, last, onCourse, unfailed⟩
  · obtain ⟨note, phase, step⟩ := h.orderly.answering.stepping found
    have latest := h.orderly.last_isLatest held last
    have standing := h.orderly.standing _ _ _ held
    have place : p.path = change.path := standing.path
    rw [taken]
    by_cases own : q.number = number
    · subst own
      cases Option.some.inj (held.symm.trans found)
      have stays := p.step_onCourse s.index standing.asked onCourse (well rfl p held)
      refine ⟨_, advanced_has_self .., last.advanced step step.beside.path step.beside.generation,
        stays, fun ended e' known => ?_⟩
      rw [← place] at unfailed known
      obtain ⟨e, before, rfl⟩ := step.entry_before known
      exact step.unfailed latest onCourse (step.after ▸ stays) unfailed
        (step.after ▸ ended) before
    · refine ⟨p, advanced_has_other held (Ne.symm own), last.advanced step rfl rfl, onCourse,
        fun ended e' known => ?_⟩
      by_cases here : change.path = q.path
      · rw [here] at known
        obtain ⟨e, before, rfl⟩ := step.entry_before known
        have same : p.path = q.path := place.trans here
        -- only the latest event can be noted as failed, which is not that of another pass
        refine step.late_unfailed (Bool.eq_false_iff.mpr fun also => ?_)
          (unfailed ended e (here ▸ before))
        have earlier := h.orderly.before_latest found also held (Ne.symm own) same
        exact Nat.not_le_of_lt earlier (last _ _ q found same.symm)
      · exact unfailed ended e' ((step.notes.other here).symm.trans known)

theorem Prevails.around (h : Prevails number change s) {op : Operation} (aside : op.Aside) :
    Prevails number change (s.around op) := by
  obtain ⟨p, held, last, onCourse, unfailed⟩ := h.pass
  have files := s.around_files aside
  exact ⟨h.orderly.around aside, files.symm ▸ h.tidy, p, held, last, onCourse,
    files.symm ▸ unfailed⟩

end

end Session

/-! ## Attempts beside a session -/

/-- A session, with the changes that were read to be tried again and are not begun yet. -/
structure Recovery where
  session : Session
  waiting : List FileChange := []

namespace Recovery

inductive Step where
  | move (m : Move)
  /-- What is due is read. -/
  | read
  /-- A change that was read is begun. -/
  | retry (place : Nat)

def step (r : Recovery) : Step → Recovery
  | .move m => { r with session := r.session.move m }
  | .read =>
    { r with waiting := r.waiting ++ r.session.index.files.dueRetries r.session.index.now }
  | .retry place =>
    match r.waiting[place]? with
    | some change =>
      { session := r.session.begin (.index change), waiting := r.waiting.eraseIdx place }
    | none => r

def start (w : CodeIndex) : Recovery :=
  { session := .start w }

def stepAll (r : Recovery) (steps : List Step) : Recovery :=
  steps.foldl step r

/-! ### Alone -/

/-- Each of the changes that wait is begun and goes on to its end. -/
def batch : List FileChange → Nat → List Step
  | [], _ => []
  | _ :: rest, number =>
    .retry 0 :: (List.replicate Pass.maxSteps (.step number)).map .move ++ batch rest (number + 1)

theorem stepAll_moves (r : Recovery) (moves : List Move) :
    r.stepAll (moves.map .move) = { r with session := r.session.moveAll moves } := by
  induction moves generalizing r with
  | nil => rfl
  | cons m rest ih => exact ih (r.step (.move m))

theorem moveAll_steps_passes {s : Session} (h : s.Orderly) (n number : Nat) :
    (s.moveAll (List.replicate n (.step number))).index.passes = s.index.passes := by
  induction n generalizing s with
  | zero => rfl
  | succ n ih =>
      refine (ih (h.step number)).trans ?_
      rcases h.answering.step_cases number with still | ⟨request, p, rfl, held, taken⟩
      · rw [still]
      · obtain ⟨_, _, step⟩ := h.answering.stepping held
        rw [taken]
        exact step.beside.passes

theorem stepAll_retry (s : Session) (change : FileChange) (rest : List FileChange) (n : Nat) :
    (Recovery.mk s (change :: rest)).stepAll
        (.retry 0 :: (List.replicate n (.step s.index.passes)).map .move) =
      ⟨(s.begin (.index change)).moveAll (List.replicate n (.step s.index.passes)), rest⟩ :=
  stepAll_moves ⟨s.begin (.index change), rest⟩ _

theorem stepAll_batch (waiting : List FileChange) {s : Session} (orderly : s.Orderly) :
    ((Recovery.mk s waiting).stepAll (batch waiting s.index.passes)).session.index =
      (s.index.indexBatch waiting).2 := by
  induction waiting generalizing s with
  | nil => rfl
  | cons change rest ih =>
      -- steps begin no pass, so that the next change gets the next number
      have solo := (s.solo_process (.index change)).1
      rw [Session.moveAll_solo] at solo
      have passes := moveAll_steps_passes (orderly.begin (.index change)) Pass.maxSteps
        s.index.passes
      have first := stepAll_retry s change rest Pass.maxSteps
      have tail := ih ((orderly.begin (.index change)).moveAll
        (List.replicate Pass.maxSteps (.step s.index.passes)))
      rw [passes, solo] at tail
      rw [batch, stepAll, List.foldl_append, ← stepAll, ← stepAll, first]
      exact tail

/-- To try again what failed is to read what is due and run a pass for each change that was read. -/
theorem retryFailed_eq {w : CodeIndex} (reached : CodeIndex.Reached w) :
    w.retryFailed.2 =
      ((start w).stepAll (.read :: batch (w.files.dueRetries w.now) w.passes)).session.index :=
  (stepAll_batch _ (.start reached.numbered)).symm

/-- No content of a path waits to be tried again. -/
def clear (path : String) (changes : List FileChange) : Bool :=
  changes.all (·.path != path)

/-- There is no other event for a path than that of a pass, the pass goes well, and nothing of the
    path is read to be tried again while it is on its way. -/
def spares (number : Nat) (path : String) (r : Recovery) : Step → Bool
  | .move (.begin request) => request.path != path
  | .move (.step m) =>
    m != number ||
      (Keyed.get? r.session.passes number).all fun (_, p) => p.goesWell r.session.index
  | .read =>
    clear path (r.session.index.files.dueRetries r.session.index.now) ||
      (Keyed.get? r.session.passes number).any fun (_, p) => p.phase.returned
  | _ => true

section

variable {r : Recovery} {number : Nat} {change : FileChange}

theorem clear_iff {path : String} {changes : List FileChange} :
    clear path changes = true ↔ ∀ old ∈ changes, old.path ≠ path := by
  simp [clear]

/-- What was read leaves the last event for the path alone. -/
structure Spared (number : Nat) (change : FileChange) (r : Recovery) : Prop where
  prevails : r.session.Prevails number change
  clear : clear change.path r.waiting = true

/-- When the pass has ended, nothing of its path is due. -/
theorem Spared.due_clear (h : Spared number change r)
    (spares : r.spares number change.path .read = true) :
    Recovery.clear change.path (r.session.index.files.dueRetries r.session.index.now) = true := by
  rcases Bool.or_eq_true _ _ ▸ spares with clear | ended
  · exact clear
  · obtain ⟨p, held, -, -, unfailed⟩ := h.prevails.pass
    rw [show Keyed.get? r.session.passes number = _ from held, Option.any_some] at ended
    refine clear_iff.mpr fun old due here => ?_
    obtain ⟨e, known, failed⟩ := h.prevails.tidy.due due
    have denied := unfailed (.of_returned ended) e (here ▸ known)
    rw [denied] at failed
    cases failed

theorem Spared.step (h : Spared number change r) {m : Step}
    (spares : r.spares number change.path m = true) : Spared number change (r.step m) := by
  obtain ⟨prevails, clear⟩ := h
  cases m with
  | read =>
      refine ⟨prevails, ?_⟩
      have due := Spared.due_clear ⟨prevails, clear⟩ spares
      simp only [Recovery.step, Recovery.clear, List.all_append, Bool.and_eq_true] at clear due ⊢
      exact ⟨clear, due⟩
  | retry place =>
      simp only [Recovery.step]
      split
      · rename_i old found
        have inside := List.mem_of_getElem? found
        refine ⟨prevails.begin (clear_iff.mp clear old inside), clear_iff.mpr fun other left => ?_⟩
        exact clear_iff.mp clear other (List.mem_of_mem_eraseIdx left)
      · exact ⟨prevails, clear⟩
  | move m =>
      refine ⟨?_, clear⟩
      rcases r.session.begin_or_step_or_around m with
        ⟨request, rfl⟩ | ⟨m, rfl⟩ | ⟨op, aside, moved⟩
      · exact prevails.begin (by simpa [Recovery.spares] using spares)
      · refine prevails.step m fun own p held => ?_
        subst own
        simp only [Recovery.spares, bne_self_eq_false, Bool.false_or,
          show Keyed.get? r.session.passes m = _ from held, Option.all_some] at spares
        exact spares
      · rw [Recovery.step, moved]
        exact prevails.around aside

end

/-! ## Over any index -/

/-- A recovery over an index that was built, and since then went through anything. -/
inductive Reached : Recovery → Prop where
  | start {w : CodeIndex} (reached : CodeIndex.Reached w) : Reached (start w)
  | step {r : Recovery} (reached : Reached r) (m : Step) : Reached (r.step m)

theorem Reached.sound {r : Recovery} (reached : Reached r) :
    r.session.Orderly ∧ r.session.index.files.Tidy := by
  induction reached with
  | start reached => exact ⟨.start reached.numbered, reached.tidy⟩
  | @step r _ m ih =>
      obtain ⟨orderly, tidy⟩ := ih
      cases m with
      | move m => exact ⟨orderly.move m, orderly.answering.tidy_move tidy m⟩
      | read => exact ⟨orderly, tidy⟩
      | retry place =>
          simp only [Recovery.step]
          split
          · exact ⟨orderly.begin _, tidy.begin _⟩
          · exact ⟨orderly, tidy⟩

theorem Reached.stepAll {r : Recovery} (reached : Reached r) (steps : List Step) :
    Reached (r.stepAll steps) :=
  List.foldlRecOn (motive := Reached) steps _ reached fun _ reached m _ => reached.step m

/-- A change comes in for a path of which nothing waits to be tried again. Unless something of the
    path is read to be tried again while its pass is on its way, what failed before does not take
    over: the pass is not superseded, and when it has ended, its content is held, whatever else is
    tried again. -/
theorem later_change_prevails {r : Recovery} (reached : Reached r) (change : FileChange)
    (unread : clear change.path r.waiting = true) (steps : List Step)
    (spared : Along step (fun t m => t.spares r.session.index.passes change.path m = true)
      (r.step (.move (.begin (.index change)))) steps)
    {request : Request} {p : Pass} {result : Except PassError Ack}
    (held : ((r.step (.move (.begin (.index change)))).stepAll steps).session.Has
      r.session.index.passes request p) (ended : p.phase = .ended result) :
    ∃ ack, result = .ok ack ∧ ack.outcome ≠ .superseded ∧
      ((r.step (.move (.begin (.index change)))).stepAll steps).session.index.state.Serves
        ((r.step (.move (.begin (.index change)))).stepAll steps).session.index.registered
        change := by
  obtain ⟨orderly, tidy⟩ := reached.sound
  -- that the pass prevails goes through every step; what it has reported is then true
  have kept := spared.invariant (motive := Spared r.session.index.passes change)
    ⟨.begun orderly tidy change, unread⟩ fun t m kept spares => kept.step spares
  obtain ⟨last, heldLast, isLast, onCourse, -⟩ := kept.prevails.pass
  cases Option.some.inj (held.symm.trans heldLast)
  rw [ended] at onCourse
  cases result with
  | error cause => cases onCourse
  | ok ack =>
      obtain ⟨prevailed, holds⟩ := kept.prevails.orderly.last_holds held isLast ended
      have serves {s : IndexState} {registered : List Language}
          (told : ∃ asked, Request.index change = .index asked ∧ s.Serves registered asked) :
          s.Serves registered change := by
        obtain ⟨asked, same, serves⟩ := told
        cases same
        exact serves
      refine ⟨ack, rfl, prevailed, ?_⟩
      cases outcome : ack.outcome with
      | indexed | unchanged =>
          rw [outcome] at holds
          exact serves holds
      | superseded => exact absurd outcome prevailed
      | removed | notIndexed =>
          simp only [Phase.onCourse, outcome] at onCourse
          cases onCourse

/-! ## Content that fails before a change comes in -/

open CodeIndex (oneFunction constantEmbedder smallIndex build_small)

def offline : Embedder :=
  { constantEmbedder with embed := fun _ => .error (.refused (.provider "provider offline")) }

/-- A file fails because the embedder is offline, which it is no more a minute later. -/
def afterFailure : Recovery :=
  (start smallIndex).stepAll
    (.move (.provider offline) :: .move (.begin (.index (oneFunction "f()"))) ::
      List.replicate 9 (.move (.step 0)) ++
        [.move (.provider constantEmbedder), .move (.clock ⟨60, 0⟩)])

theorem afterFailure_reached : Reached afterFailure :=
  Reached.stepAll (.start (.built build_small)) _

/-- What failed is due when the file is changed, and is looked for when the pass has entered a
    stage, and when it has ended. -/
def laterSteps : List Step :=
  List.replicate 5 (.move (.step 1)) ++ .read :: List.replicate 8 (.move (.step 1)) ++ [.read]

theorem laterSteps_prevail :
    (afterFailure.session.index.files.dueRetries ⟨60, 0⟩).length = 1 ∧
      clear "a.py" afterFailure.waiting = true ∧
      Along step (fun t m => t.spares 1 "a.py" m = true)
        (afterFailure.step (.move (.begin (.index (oneFunction "f(x)"))))) laterSteps ∧
      ((afterFailure.step (.move (.begin (.index (oneFunction "f(x)"))))).stepAll
        laterSteps).session.index.state.Serves
          ((afterFailure.step (.move (.begin (.index (oneFunction "f(x)"))))).stepAll
            laterSteps).session.index.registered (oneFunction "f(x)") := by
  have computed : afterFailure.session.index.passes = 1 ∧
      (afterFailure.session.index.files.dueRetries ⟨60, 0⟩).length = 1 ∧
      clear "a.py" afterFailure.waiting = true ∧
      Along step (fun t m => t.spares 1 "a.py" m = true)
        (afterFailure.step (.move (.begin (.index (oneFunction "f(x)"))))) laterSteps ∧
      (Keyed.get? ((afterFailure.step (.move (.begin (.index (oneFunction "f(x)"))))).stepAll
        laterSteps).session.passes 1).any (fun found => found.2.phase.returned) = true := by
    decide +kernel
  obtain ⟨number, due, unread, spared, returned⟩ := computed
  obtain ⟨⟨request, p⟩, held, ended⟩ := (Option.any_eq_true _ _).mp returned
  obtain ⟨result, ended⟩ := Pass.Ended.of_returned ended
  obtain ⟨ack, -, -, serves⟩ :=
    later_change_prevails afterFailure_reached (oneFunction "f(x)") unread laterSteps
      (by rw [number]; exact spared) (by rw [number]; exact held) ended
  exact ⟨due, unread, spared, serves⟩

/-- The change waits when what failed is read to be tried again. -/
def overwriting : List Step :=
  .read :: .retry 0 :: List.replicate 2 (.move (.step 1)) ++ List.replicate 12 (.move (.step 2))

/-- The content that failed is held in the end, and not that of the change that came in later. -/
theorem failed_content_takes_over :
    ((afterFailure.step (.move (.begin (.index (oneFunction "f(x)"))))).stepAll
      overwriting).session.rests "a.py" = true ∧
    (((afterFailure.step (.move (.begin (.index (oneFunction "f(x)"))))).stepAll
      overwriting).session.index.state.unit? "a.py").map (·.unit.contentHash) =
        some (Digest.contentHash "f()") ∧
    Digest.contentHash "f()" ≠ Digest.contentHash "f(x)" := by
  decide +kernel

end Recovery

end CodeSearch

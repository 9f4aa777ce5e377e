import Mathlib.Algebra.GroupWithZero.Nat
import MatchTape.Proofs.Screening.Errors

/-!
# Recordings do not influence each other

A recording is played in an arena that begins anew, so of the recordings in front of it
nothing is left but the checkpoints that were saved.  Where the files stay as they are and a
save does not end otherwise for the saves before it, each recording is reported as if it were
the only one.
-/

namespace MatchTape.Playback

open Record

variable {σ : Type}

namespace Store

inductive Leads (store : Store σ) (first : σ) : σ → Prop where
  | start : Leads store first first
  | save {shelf : σ} (earlier : Leads store first shelf) (name : String)
      (checkpoint : Checkpoint) : Leads store first (store.save name checkpoint shelf).2

/-- How a save ends does not depend on the saves before it. -/
def Steady (store : Store σ) (first : σ) : Prop :=
  ∀ shelf, store.Leads first shelf → ∀ name checkpoint,
    (store.save name checkpoint shelf).1 = (store.save name checkpoint first).1

def inMemory : Store (List (String × Checkpoint)) where
  save name checkpoint kept := (.ok (), (name, checkpoint) :: kept)
  load name kept := (kept.lookup name).elim (.error .badRecord) .ok

theorem steady_inMemory (kept : List (String × Checkpoint)) : inMemory.Steady kept :=
  fun _ _ _ _ => rfl

end Store

namespace Session

/-- A session that comes to the frame of a checkpoint ends as the save does. -/
theorem run_saves {store : Store σ} {shelf : σ} {session final : Session} {name : String}
    (inside : session.outsideRequest? = none) (plays : play session = .ok (.due name) final) :
    let saved := store.save name final.checkpoint shelf
    run store session shelf =
      ((saved.1.map fun _ => .saved final.frame name).mapError (.checkpointSave name), final,
        saved.2) := by
  intro saved
  cases saves : saved with
  | mk result after =>
      cases result with
      | ok => exact run_due inside plays saves
      | error cause => exact run_due_error inside plays saves

/-- Either a run has nothing to do with the store, or it saves one checkpoint. -/
theorem run_alone_or_saves (session : Session) :
    (∃ result final, ∀ {σ : Type} (store : Store σ) (shelf : σ),
      run store session shelf = (result, final, shelf)) ∨
    ∃ name final, session.outsideRequest? = none ∧ play session = .ok (.due name) final := by
  cases inside : session.outsideRequest? with
  | some request =>
      refine .inl ⟨.error (session.outsideFailure request), session, fun store shelf => ?_⟩
      rw [run, inside]
  | none =>
      by_cases due : ∃ name final, play session = .ok (.due name) final
      · obtain ⟨name, final, plays⟩ := due
        exact .inr ⟨name, final, rfl, plays⟩
      · exact .inl ⟨_, _, fun store shelf =>
          run_of_play store shelf inside fun name final plays => due ⟨name, final, plays⟩⟩

theorem leads_run (store : Store σ) {first shelf : σ} (earlier : store.Leads first shelf)
    (session : Session) : store.Leads first (run store session shelf).2.2 := by
  rcases session.run_alone_or_saves with ⟨result, final, runs⟩ | ⟨name, final, inside, plays⟩
  · rw [runs]
    exact earlier
  · rw [run_saves inside plays]
    exact earlier.save name final.checkpoint

/-- On shelves where saves end the same a session runs the same. -/
theorem run_congr {store : Store σ} {first shelf : σ}
    (same : ∀ name checkpoint,
      (store.save name checkpoint shelf).1 = (store.save name checkpoint first).1)
    (session : Session) :
    (run store session shelf).1 = (run store session first).1 ∧
      (run store session shelf).2.1 = (run store session first).2.1 := by
  rcases session.run_alone_or_saves with ⟨result, final, runs⟩ | ⟨name, final, inside, plays⟩
  · rw [runs, runs]
    exact ⟨rfl, rfl⟩
  · rw [run_saves inside plays, run_saves inside plays, same]
    exact ⟨rfl, rfl⟩

end Session

end MatchTape.Playback

namespace MatchTape.Screening

open Playback World Session

variable {σ : Type} {desk : Desk σ} {options : Options} {first : σ}

def Desk.ofFiles (files : String → Except Files.Fault (List UInt8)) (store : Store σ) : Desk σ where
  read _ := files
  store := store

/-- What a desk gives does not depend on the checkpoints that were saved: neither what it reads
nor how a save ends. -/
structure Desk.Steady (desk : Desk σ) (first : σ) : Prop where
  reads : ∀ shelf, desk.store.Leads first shelf → desk.read shelf = desk.read first
  saves : desk.store.Steady first

theorem Desk.steady_ofFiles (files : String → Except Files.Fault (List UInt8)) {store : Store σ}
    (steady : store.Steady first) : (Desk.ofFiles files store).Steady first :=
  ⟨fun _ _ => rfl, steady⟩

/-! ## One recording -/

def Screened.outcome (screened : Screened) : Outcome :=
  ⟨screened.text, ⟨1, if screened.isError then 1 else 0⟩⟩

/-- A single recording is all there is to report, whether or not it ends the screening. -/
theorem inSequence_singleton (desk : Desk σ) (options : Options) (source : String)
    (standing : Standing σ) :
    (inSequence desk options [source] standing).1 =
      (screen desk options source standing).1.outcome := by
  have single : (screenAll desk options [source] standing).1 =
      [(screen desk options source standing).1] := by
    simp only [screenAll, ite_self]
  simp only [inSequence, single, Screened.outcome, List.countP_singleton, closing,
    List.map_singleton, List.length_singleton, Nat.lt_irrefl, if_false, String.append_empty,
    String.join_cons, String.join_nil]

/-- A recording is reported the same, whatever arena was left and whatever was saved. -/
theorem screen_steady (steady : desk.Steady first) {standing : Standing σ}
    (earlier : desk.store.Leads first standing.shelf) (source : String) (arena : Arena) :
    (screen desk options source standing).1 = (screen desk options source ⟨arena, first⟩).1 := by
  have same : openSession desk options source standing.shelf =
      openSession desk options source first := by
    rw [openSession, openSession, steady.reads _ earlier]
  cases opened : openSession desk options source first with
  | error => simp only [screen, same, opened]
  | ok session =>
      obtain ⟨result, left⟩ := run_congr (steady.saves _ earlier) (prepare options session)
      simp only [screen, same, opened, result, left]

theorem leads_screen {standing : Standing σ} (earlier : desk.store.Leads first standing.shelf)
    (source : String) :
    desk.store.Leads first (screen desk options source standing).2.shelf := by
  unfold screen
  split
  · exact earlier
  · exact leads_run desk.store earlier _

/-! ## All recordings -/

/-- If something is kept about the shelf on which each recording is reported as on a first one,
a screening that nobody stops comes to what its recordings come to one by one. -/
theorem screenAll_eq_map {motive : σ → Prop} (running : options.stopRaised = false) {arena : Arena}
    (step : ∀ source standing, motive standing.shelf →
      motive (screen desk options source standing).2.shelf ∧
        (screen desk options source standing).1 = (screen desk options source ⟨arena, first⟩).1)
    (sources : List String) {standing : Standing σ} (holds : motive standing.shelf) :
    motive (screenAll desk options sources standing).2.shelf ∧
      (screenAll desk options sources standing).1 =
        sources.map fun source => (screen desk options source ⟨arena, first⟩).1 := by
  induction sources generalizing standing with
  | nil => exact ⟨holds, rfl⟩
  | cons source sources ih =>
      have goesOn : (screen desk options source standing).1.ends = false :=
        (screen_counts running source standing).2
      obtain ⟨later, same⟩ := step source standing holds
      obtain ⟨last, others⟩ := ih later
      simp only [screenAll, goesOn, Bool.false_eq_true, if_false, List.map_cons]
      exact ⟨last, congrArg₂ List.cons same others⟩

theorem screenAll_apart (steady : desk.Steady first) (running : options.stopRaised = false)
    (sources : List String) {standing : Standing σ}
    (earlier : desk.store.Leads first standing.shelf) (arena : Arena) :
    (screenAll desk options sources standing).1 =
      sources.map fun source => (screen desk options source ⟨arena, first⟩).1 :=
  (screenAll_eq_map running (fun source _ earlier =>
    ⟨leads_screen earlier source, screen_steady steady earlier source arena⟩) sources earlier).2

/-- A recording of which no checkpoint is asked for leaves the shelf as it is, and is reported
whatever arena was left. -/
theorem screen_plain (plain : options.request? = none) (source : String) (standing : Standing σ)
    (arena : Arena) :
    (screen desk options source standing).2.shelf = standing.shelf ∧
      (screen desk options source standing).1 =
        (screen desk options source ⟨arena, standing.shelf⟩).1 := by
  cases opened : openSession desk options source standing.shelf with
  | error => simp only [screen, opened, and_self]
  | ok session =>
      have asked : (prepare options session).request = none := plain
      simp only [screen, opened, run_plain desk.store standing.shelf asked, and_self]

/-- A screening in which no checkpoint is asked for leaves the shelf as it is, and reports each
recording as if it were the only one. -/
theorem screenAll_plain (plain : options.request? = none) (running : options.stopRaised = false)
    (sources : List String) (standing : Standing σ) (arena : Arena) :
    (screenAll desk options sources standing).2.shelf = standing.shelf ∧
      (screenAll desk options sources standing).1 =
        sources.map fun source => (screen desk options source ⟨arena, standing.shelf⟩).1 := by
  refine screenAll_eq_map (motive := (· = standing.shelf)) running ?_ sources rfl
  intro source later same
  rw [← same]
  exact screen_plain plain source later arena

/-- The errors of a screening are those of its recordings, taken together. -/
theorem countP_isError (screened : List Screened) :
    screened.countP Screened.isError =
      (screened.map fun one => one.outcome.summary.errors).sum := by
  induction screened with
  | nil => rfl
  | cons one others ih =>
      rw [List.countP_cons, List.map_cons, List.sum_cons, ih, Nat.add_comm]
      rfl

/-- With files that are given and a store whose saves do not depend on earlier ones, a screening
that nobody stops reports each recording, in order, as if it were screened alone in an arena that
is new.  Two lines close the report if and only if there is more than one recording, and the
errors are those of the recordings. -/
theorem inSequence_apart (files : String → Except Files.Fault (List UInt8)) {store : Store σ}
    {shelf : σ} (steady : store.Steady shelf) (running : options.stopRaised = false)
    (sources : List String) (arena : Arena) :
    let desk := Desk.ofFiles files store
    let alone := fun source => (inSequence desk options [source] ⟨.empty, shelf⟩).1
    let errors := (sources.map fun source => (alone source).summary.errors).sum
    (screenAll desk options sources ⟨arena, shelf⟩).1.map Screened.outcome =
        sources.map alone ∧
      (inSequence desk options sources ⟨arena, shelf⟩).1 =
        ⟨String.join (sources.map fun source => (alone source).text) ++
            (if 1 < sources.length then
              closingLine errors ++ line s!"Total Time: {wallTime 0}" else ""),
          ⟨sources.length, errors⟩⟩ := by
  intro desk alone errors
  have parts : (screenAll desk options sources ⟨arena, shelf⟩).1.map Screened.outcome =
      sources.map alone := by
    rw [screenAll_apart (Desk.steady_ofFiles files steady) running sources .start .empty,
      List.map_map]
    exact List.map_congr_left fun source _ => (inSequence_singleton desk options source _).symm
  have texts : (screenAll desk options sources ⟨arena, shelf⟩).1.map Screened.text =
      sources.map fun source => (alone source).text := by
    have same := congrArg (List.map Outcome.text) parts
    rwa [List.map_map, List.map_map] at same
  have counted : (screenAll desk options sources ⟨arena, shelf⟩).1.countP Screened.isError =
      errors := by
    have same := congrArg (List.map fun one => one.summary.errors) parts
    rw [List.map_map, List.map_map] at same
    rw [countP_isError]
    exact congrArg List.sum same
  refine ⟨parts, ?_⟩
  simp only [inSequence, texts, counted, closing]

/-- Two recordings that diverge behind a checkpoint and one that is missing, in the arena that
another recording has left. -/
theorem inSequence_apart_missing :
    let files := fun path =>
      if path = "Replays/missing" then .error .notFound else .ok (Tape.recordingOf 1 [leaving])
    let desk := Desk.ofFiles files .inMemory
    let alone := fun source => (inSequence desk askingOptions [source] ⟨.empty, []⟩).1
    let errors := ["first", "missing", "second"].map fun source => (alone source).summary.errors
    (inSequence desk askingOptions ["first", "missing", "second"] ⟨.begin {}, []⟩).1 =
      ⟨String.join [(alone "first").text, (alone "missing").text, (alone "second").text] ++
          (closingLine errors.sum ++ line s!"Total Time: {wallTime 0}"), ⟨3, errors.sum⟩⟩ :=
  (inSequence_apart _ (Store.steady_inMemory []) rfl ["first", "missing", "second"] (.begin {})).2

end MatchTape.Screening

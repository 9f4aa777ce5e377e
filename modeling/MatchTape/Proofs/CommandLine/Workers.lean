import MatchTape.CommandLine.Program
import MatchTape.Proofs.CommandLine.Arguments
import MatchTape.Proofs.Library.Expansion
import MatchTape.Proofs.Screening.Apart
import MatchTape.Proofs.Screening.Reports

/-!
# Workers play like the program alone

A worker is the program, run on one recording with the folders of the run that started it.  As
long as no checkpoint is asked for, a run changes no file and every recording is reported as if
it were the only one; so workers tell of the recordings what a single run tells.
-/

namespace MatchTape.CommandLine

open Files Library Screening World

def folderValues (recordings checkpoints : Option String) : List (Key × String) :=
  optional .recordings recordings ++ optional .checkpoints checkpoints

def foldersStand (recordings checkpoints : String) : Bool :=
  canStand .recordings recordings && canStand .checkpoints checkpoints

def folderRequest (recordings checkpoints : String) (names : List String) (jobs : Option Nat) :
    PlayRequest where
  recordings := recordings
  checkpoints := checkpoints
  names := names
  jobs := jobs
  saveFrame := none
  saveName := none
  loadName := none

def folderOptions (recordings checkpoints : String) : Options where
  recordings := recordings
  checkpoints := checkpoints

def screenAlone (options : Options) (files : Tree) (source : String) : Screened :=
  (screen (.ofTree options.checkpoints) options source ⟨.empty, files⟩).1

/-- What a worker is to leave of a recording of which this is reported. -/
def workerOutcome (block : Screened) : String × Int :=
  (block.text, if block.isError then 1 else 0)

/-- Workers are runs of the program of which all output is taken.  How long they run is left
open. -/
def RunsProgram (spawn : Spawn) : Prop :=
  ∀ options source files, ∃ polls,
    let finished := run (workerArguments (workerBase options) source) files
    spawn (workerArguments (workerBase options) source) files =
      (⟨some polls, finished.output, finished.code⟩, finished.files)

variable {recordings checkpoints : String} {names : List String} {source jobs : String}
  {limit : Nat} {apart : Bool} {spawn : Spawn}

/-! ## What is asked for -/

theorem shapeOf_of_head? (plain : jobs.toList.head? ≠ some '-') : shapeOf jobs = .name := by
  unfold shapeOf
  split
  case h_6 => rfl
  -- All other shapes begin with a dash.
  all_goals
    next begins => exact absurd (congrArg List.head? begins) plain

/-- A number does not look like an option. -/
theorem shapeOf_of_number (number : number? .jobs jobs = some limit) : shapeOf jobs = .name := by
  apply shapeOf_of_head?
  intro dash
  obtain ⟨rest, dashed⟩ := List.head?_eq_some_iff.mp dash
  rw [number?, unsigned?, dashed] at number
  cases number

theorem canStand_of_number (number : number? .jobs jobs = some limit) :
    canStand .jobs jobs = true := by
  have valid : isValid .jobs jobs = true := congrArg Option.isSome number
  rw [canStand, shapeOf_of_number number, valid]
  rfl

theorem parse_folders (jobs recordings checkpoints : Option String)
    (stands : ∀ value ∈ jobs, canStand .jobs value = true)
    (look : apart = false → LookLikeNames names) :
    let recordingsFolder := recordings.getD defaultRecordings
    let checkpointsFolder := checkpoints.getD defaultCheckpoints
    parse (spell (optional .jobs jobs ++ folderValues recordings checkpoints) ++
        nameArguments apart names) =
      if foldersStand recordingsFolder checkpointsFolder then
        .ok (.play (folderRequest recordingsFolder checkpointsFolder names
          (jobs.bind (number? .jobs))))
      else .error .usage := by
  intro recordingsFolder checkpointsFolder
  let values := optional .jobs jobs ++ folderValues recordings checkpoints
  have keys : (values.map Prod.fst).Sublist [.jobs, .recordings, .checkpoints] := by
    rw [List.map_append, folderValues, List.map_append]
    exact (keys_optional _ _).append ((keys_optional _ _).append (keys_optional _ _))
  have outer : ∀ pair ∈ values, pair.1 ∈ outerKeys := by
    have all : ∀ key ∈ [Key.jobs, .recordings, .checkpoints], key ∈ outerKeys := by decide
    exact fun pair member => all _ (keys.subset (List.mem_map_of_mem member))
  have once : (values.map Prod.fst).Nodup := keys.nodup (by decide)
  have given (key : Key) : Found.value? { values, names } key =
      (if key = .jobs then jobs else none).or
        ((if key = .recordings then recordings else none).or
          (if key = .checkpoints then checkpoints else none)) := by
    rw [Found.value?, List.lookup_append, folderValues, List.lookup_append, lookup_optional,
      lookup_optional, lookup_optional]
  have consistent : Found.isConsistent { values, names } = true := by
    simp [Found.isConsistent, Found.has, given]
  have request : Found.playRequest { values, names } =
      folderRequest recordingsFolder checkpointsFolder names (jobs.bind (number? .jobs)) := by
    simp [Found.playRequest, folderRequest, given, recordingsFolder, checkpointsFolder]
  have numbers : ((optional .jobs jobs).all fun pair => canStand pair.1 pair.2) = true := by
    refine List.all_eq_true.mpr fun pair member => ?_
    obtain ⟨value, listed, rfl⟩ := List.mem_map.mp member
    exact stands value (Option.mem_toList.mp listed)
  have all : (values.all fun pair => canStand pair.1 pair.2) =
      foldersStand recordingsFolder checkpointsFolder := by
    have plainRecordings : canStand .recordings defaultRecordings = true := by decide
    have plainCheckpoints : canStand .checkpoints defaultCheckpoints = true := by decide
    rw [List.all_append, numbers, Bool.true_and, folderValues, List.all_append,
      all_canStand_optional plainRecordings, all_canStand_optional plainCheckpoints]
    rfl
  rw [parse_spell outer once look, consistent, request, Bool.and_true, all]

theorem parse_alone (recordings checkpoints : Option String)
    (look : apart = false → LookLikeNames names) :
    parse (spell (folderValues recordings checkpoints) ++ nameArguments apart names) =
      if foldersStand (recordings.getD defaultRecordings)
          (checkpoints.getD defaultCheckpoints) then
        .ok (.play (folderRequest (recordings.getD defaultRecordings)
          (checkpoints.getD defaultCheckpoints) names none))
      else .error .usage :=
  parse_folders none recordings checkpoints nofun look

theorem parse_workers (number : number? .jobs jobs = some limit)
    (recordings checkpoints : Option String) (look : apart = false → LookLikeNames names) :
    parse ("-j" :: jobs :: (spell (folderValues recordings checkpoints) ++
        nameArguments apart names)) =
      if foldersStand (recordings.getD defaultRecordings)
          (checkpoints.getD defaultCheckpoints) then
        .ok (.play (folderRequest (recordings.getD defaultRecordings)
          (checkpoints.getD defaultCheckpoints) names (some limit)))
      else .error .usage := by
  rw [← number]
  refine parse_folders (some jobs) recordings checkpoints ?_ look
  rintro _ ⟨⟩
  exact canStand_of_number number

theorem parse_workerArguments (stand : foldersStand recordings checkpoints = true)
    (source : String) :
    parse (workerArguments (workerBase (folderOptions recordings checkpoints)) source) =
      .ok (.play (folderRequest recordings checkpoints [source] none)) := by
  have behindDashes : true = false → LookLikeNames [source] := nofun
  exact (parse_alone (some recordings) (some checkpoints) behindDashes).trans (if_pos stand)

theorem runWith_of_play {arguments : List String} {request : PlayRequest}
    (asked : parse arguments = .ok (.play request)) (spawn : Spawn) (files : Tree) :
    runWith spawn arguments files = play spawn request files := by
  rw [runWith, asked]

theorem runWith_of_usage {arguments : List String} (asked : parse arguments = .error .usage)
    (spawn : Spawn) (files : Tree) :
    runWith spawn arguments files = { code := usageCode, output := "", files } := by
  rw [runWith, asked]

/-! ## One recording -/

theorem resolve_singleton (options : Options) (files : Tree)
    (alone : Pattern.isPattern source = true →
      Expansion.IsAlone options.recordings files.fileNames source) :
    resolve options [source] files = [source] := by
  rw [resolve, Expansion.listTree_eq_listing, Expansion.expandAll_singleton]
  exact Expansion.expand_eq_singleton_iff.mpr alone

/-- What a run in this process reports of recordings of which no checkpoint is asked for. -/
theorem playInSequence_plain (recordings checkpoints : String) (names : List String)
    (files : Tree) :
    let options := folderOptions recordings checkpoints
    let all := (resolve options names files).map (screenAlone options files)
    let played := playInSequence options names ⟨.empty, files⟩
    played.1 = ⟨String.join (all.map Screened.text) ++
        closing all.length (all.countP Screened.isError),
      ⟨all.length, all.countP Screened.isError⟩⟩ ∧ played.2.shelf = files := by
  intro options all played
  obtain ⟨shelf, screened⟩ := @screenAll_plain Tree (.ofTree options.checkpoints) options rfl rfl
    (resolve options names files) ⟨.empty, files⟩ .empty
  have length : (resolve options names files).length = all.length := (List.length_map _).symm
  refine ⟨?_, shelf⟩
  simp only [played, playInSequence, inSequence, screened, length]
  rfl

theorem play_eq_playInSequence (spawn : Spawn) (named : names ≠ []) (files : Tree) :
    let outcome :=
      (playInSequence (folderOptions recordings checkpoints) names ⟨.empty, files⟩).1
    play spawn (folderRequest recordings checkpoints names none) files =
      { code := outcome.summary.exitCode, output := outcome.text, files } := by
  have filled : ¬ names.isEmpty = true := by simpa using named
  obtain ⟨-, shelf⟩ := playInSequence_plain recordings checkpoints names files
  rw [play, folderRequest, if_neg filled]
  exact congrArg (Finished.mk _ _ _) shelf

theorem play_eq_playInWorkers (spawn : Spawn) (named : names ≠ []) (one : 1 ≤ limit)
    (files : Tree) :
    let options := folderOptions recordings checkpoints
    let played := playInWorkers (launcher spawn (workerBase options)) limit options names files
    play spawn (folderRequest recordings checkpoints names (some limit)) files =
      { code := played.1.summary.exitCode, output := played.1.text, files := played.2 } := by
  have filled : ¬ names.isEmpty = true := by simpa using named
  have allowed : (some limit).filter (0 < ·) = some limit :=
    Option.filter_eq_some_iff.mpr ⟨rfl, decide_eq_true one⟩
  rw [play, folderRequest, if_neg filled]
  simp only [allowed]
  rfl

/-- A worker whose recording stands for itself alone prints what is reported of it, and fails if
that is an error. -/
theorem run_workerArguments (stand : foldersStand recordings checkpoints = true) (files : Tree)
    (alone : Pattern.isPattern source = true →
      Expansion.IsAlone recordings files.fileNames source) :
    let options := folderOptions recordings checkpoints
    let block := screenAlone options files source
    run (workerArguments (workerBase options) source) files =
      { code := if block.isError then 1 else 0, output := block.text, files } := by
  intro options block
  have outcome : (playInSequence options [source] ⟨.empty, files⟩).1 = block.outcome := by
    rw [playInSequence, resolve_singleton options files alone]
    exact inSequence_singleton _ options source _
  rw [run, runWith_of_play (parse_workerArguments stand source)]
  refine (play_eq_playInSequence _ (List.cons_ne_nil source []) files).trans ?_
  rw [outcome]
  cases isError : block.isError <;> simp [Screened.outcome, Summary.exitCode, isError]

/-- A worker that runs the program leaves what is to be left of its recording. -/
theorem launcher_eq (program : RunsProgram spawn)
    (stand : foldersStand recordings checkpoints = true) (files : Tree)
    (alone : Pattern.isPattern source = true →
      Expansion.IsAlone recordings files.fileNames source) :
    let options := folderOptions recordings checkpoints
    let left := workerOutcome (screenAlone options files source)
    ∃ polls, launcher spawn (workerBase options) source files =
      (.ok ⟨some polls, left.1, left.2⟩, files) := by
  intro options left
  obtain ⟨polls, spawned⟩ := program options source files
  rw [run_workerArguments stand files alone] at spawned
  refine ⟨polls, ?_⟩
  rw [launcher, spawned]
  simp only [left, workerOutcome]
  cases (screenAlone options files source).isError <;> rfl

/-! ## All recordings -/

theorem getLast?_text (options : Options) (files : Tree) (source : String) :
    (screenAlone options files source).text.toList.getLast? = some '\n' := by
  have ended (before text : String) : (before ++ line text).toList.getLast? = some '\n' := by
    rw [line, ← String.append_assoc, String.toList_append]
    exact List.getLast?_concat
  unfold screenAlone screen
  split
  · exact ended _ _
  · simp only [sessionText, ← String.append_assoc]
    exact ended _ _

/-- What a pool tells of workers that print what is reported of their recordings. -/
theorem told_blocks (total : Nat) {all : List Screened}
    (ended : ∀ block ∈ all, block.text.toList.getLast? = some '\n') :
    told total (all.map workerOutcome) =
      String.join ((all.zipIdx 1).map fun (block, number) =>
        s!"{number}/{total} " ++ block.text ++ if block.isError then "Error!\n" else "") := by
  rw [told, List.zipIdx_map, List.map_map]
  congr 1
  apply List.map_congr_left
  rintro ⟨block, number⟩ member
  have line := ended block (List.fst_mem_of_mem_zipIdx member)
  cases isError : block.isError <;> simp [workerOutcome, line, isError]

theorem failures_blocks (all : List Screened) :
    failures (all.map workerOutcome) = all.countP Screened.isError := by
  rw [failures, List.countP_map]
  congr 1
  funext block
  cases isError : block.isError <;> simp [workerOutcome, isError]

/-- What workers report of recordings that are named without patterns. -/
theorem playInWorkers_plain (program : RunsProgram spawn)
    (stand : foldersStand recordings checkpoints = true) (limit : Nat) (files : Tree)
    (plain : ∀ source ∈ resolve (folderOptions recordings checkpoints) names files,
      Pattern.isPattern source = false) :
    let options := folderOptions recordings checkpoints
    let all := (resolve options names files).map (screenAlone options files)
    let errors := all.countP Screened.isError
    (playInWorkers (launcher spawn (workerBase options)) limit options names files).1 =
      ⟨String.join ((all.zipIdx 1).map fun (block, number) =>
          s!"{number}/{all.length} " ++ block.text ++ if block.isError then "Error!\n" else "") ++
        closingLine errors ++ line s!"Total Wall Time: {Playback.wallTime 0}",
        ⟨all.length, errors⟩⟩ := by
  intro options all errors
  obtain ⟨left, finite⟩ := outcomes_eq_map fun source member =>
    launcher_eq program stand files fun pattern =>
      absurd (pattern.symm.trans (plain source member)) Bool.noConfusion
  have ends := Pool.ends_freshJobs finite
  have ended : ∀ block ∈ all, block.text.toList.getLast? = some '\n' := by
    intro block member
    obtain ⟨source, -, rfl⟩ := List.mem_map.mp member
    exact getLast?_text options files source
  have total : (resolve options names files).length = all.length := (List.length_map _).symm
  have outcomes : outcomes (launcher spawn (workerBase options)) (resolve options names files)
      files = all.map workerOutcome := by
    rw [left, List.map_map]
    rfl
  rw [playInWorkers, Pool.report_dispatch limit ends, Pool.summary_dispatch limit ends, outcomes,
    total, told_blocks _ ended, failures_blocks]

/-- With `-j` and a number that is not zero in front of its arguments, the program ends with the
same code as without, whatever the files, the folders in arguments of their own and the names
behind two dashes are, if no recording that they stand for has a pattern as its name and each
worker is a run of the program.  If the arguments are understood and there is a name, both count
the same errors.  Without workers a report stands for each recording, one behind the other; with
workers the same reports do, each behind its number and in front of one line more if it is an
error, and lines of its own close the whole. -/
theorem workers_play_alone (program : RunsProgram spawn)
    (number : number? .jobs jobs = some limit) (one : 1 ≤ limit)
    (recordings checkpoints : Option String) (look : apart = false → LookLikeNames names)
    (files : Tree)
    (plain : ∀ source ∈ Expansion.expandAll (recordings.getD defaultRecordings)
      (Expansion.listTree files) names, Pattern.isPattern source = false) :
    let arguments := spell (folderValues recordings checkpoints) ++ nameArguments apart names
    let workers := runWith spawn ("-j" :: jobs :: arguments) files
    let alone := run arguments files
    let options :=
      folderOptions (recordings.getD defaultRecordings) (checkpoints.getD defaultCheckpoints)
    let all := (resolve options names files).map (screenAlone options files)
    let errors := all.countP Screened.isError
    workers.code = alone.code ∧
      ((∃ request, parse arguments = .ok request) → names ≠ [] →
        (playInSequence options names ⟨.empty, files⟩).1 =
          ⟨alone.output, ⟨all.length, errors⟩⟩ ∧
        (playInWorkers (launcher spawn (workerBase options)) limit options names files).1 =
          ⟨workers.output, ⟨all.length, errors⟩⟩ ∧
        alone.output = String.join (all.map Screened.text) ++
          (if 1 < all.length then
            closingLine errors ++ line s!"Total Time: {Playback.wallTime 0}" else "") ∧
        workers.output = String.join ((all.zipIdx 1).map fun (block, number) =>
            s!"{number}/{all.length} " ++ block.text ++
              if block.isError then "Error!\n" else "") ++
          closingLine errors ++ line s!"Total Wall Time: {Playback.wallTime 0}") := by
  intro arguments workers alone options all errors
  have asked : parse arguments = _ := parse_alone recordings checkpoints look
  have askedWorkers : parse ("-j" :: jobs :: arguments) = _ :=
    parse_workers number recordings checkpoints look
  cases stand : foldersStand (recordings.getD defaultRecordings)
      (checkpoints.getD defaultCheckpoints) with
  | false =>
      rw [stand, if_neg Bool.false_ne_true] at asked askedWorkers
      have refused : workers.code = alone.code := by
        rw [show workers = _ from runWith_of_usage askedWorkers spawn files,
          show alone = _ from runWith_of_usage asked _ files]
      refine ⟨refused, ?_⟩
      rintro ⟨request, understood⟩
      cases asked.symm.trans understood
  | true =>
      rw [stand, if_pos rfl] at asked askedWorkers
      have played : workers = _ := runWith_of_play askedWorkers spawn files
      have playedAlone : alone = _ := runWith_of_play asked _ files
      by_cases named : names = []
      · refine ⟨?_, fun _ filled => absurd named filled⟩
        rw [played, playedAlone, named]
        rfl
      · have told := playInWorkers_plain program stand limit files plain
        obtain ⟨reported, -⟩ := playInSequence_plain (recordings.getD defaultRecordings)
          (checkpoints.getD defaultCheckpoints) names files
        rw [play_eq_playInWorkers spawn named one files, told] at played
        rw [play_eq_playInSequence _ named files, reported] at playedAlone
        rw [told, reported, played, playedAlone]
        exact ⟨rfl, fun _ _ => ⟨rfl, rfl, rfl, rfl⟩⟩

def oldFiles : Tree where
  levels := [[("Replays", .folder
    [("-old.rep", .file (Tape.magic ++ Tape.version :: [0, 0, 0, 0]))])]]

/-- Two workers for this recording and for one that is missing, whose name is a command. -/
theorem workers_play_alone_old :
    let spawn : Spawn := fun arguments files => (run arguments files).toWorker
    let workers := runWith spawn ["-j", "2", "--", "-old.rep", "record"] oldFiles
    let alone := run ["--", "-old.rep", "record"] oldFiles
    workers.code = alone.code ∧
      alone.output = "Simulating Replay \"-old.rep\"\n" ++
        "Elapsed Time: 00:00 Game Time: 00:00/00:00\n" ++
        "Simulating Replay \"record\"\nCannot open replay\n" ++
        "Simulation of all replays completed. Errors occurred: 1\nTotal Time: 0:00:00\n" ∧
      workers.output = "1/2 Simulating Replay \"-old.rep\"\n" ++
        "Elapsed Time: 00:00 Game Time: 00:00/00:00\n" ++
        "2/2 Simulating Replay \"record\"\nCannot open replay\nError!\n" ++
        "Simulation of all replays completed. Errors occurred: 1\nTotal Wall Time: 0:00:00\n" := by
  intro spawn workers alone
  have program : RunsProgram spawn := fun _ _ _ => ⟨0, rfl⟩
  have plain : ∀ source ∈ Expansion.expandAll defaultRecordings (Expansion.listTree oldFiles)
      ["-old.rep", "record"], Pattern.isPattern source = false := by decide +kernel
  obtain ⟨code, reports⟩ := @workers_play_alone ["-old.rep", "record"] "2" 2 true spawn program rfl
    (by decide) none none nofun oldFiles plain
  obtain ⟨-, -, told, toldByWorkers⟩ :=
    reports ⟨.play (folderRequest "Replays" "Save" ["-old.rep", "record"] none), rfl⟩
      (List.cons_ne_nil _ _)
  exact ⟨code, told.trans (by decide +kernel), toldByWorkers.trans (by decide +kernel)⟩

end MatchTape.CommandLine

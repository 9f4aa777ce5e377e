import MatchTape.Proofs.Files.Tree
import MatchTape.Proofs.Playback.Ending
import MatchTape.Proofs.Tape.Draft
import MatchTape.Proofs.World.Seating

/-!
# Playing with the seats in another order

Two recordings with the same packets, whose sheets have the same seats in different orders, are
played side by side.  Their tapes give the same batches, their arenas differ in the setup alone,
and so every frame leads to the same report.  What tells the two apart is the digest of the whole
recording, which playing hands over to a store and does not look at.
-/

namespace MatchTape

open Packet Record World

/-! ## Tapes -/

namespace Tape

/-- Two tapes have the same left to read, behind sheets with the same seats. -/
structure Paired (tape other : Tape) : Prop where
  sheet : tape.sheet.Reseated other.sheet
  name : other.name = tape.name
  position : other.position = tape.position
  lastFrame : other.lastFrame = tape.lastFrame
  rest : other.rest = tape.rest

namespace Paired

variable {tape other : Tape}

theorem frameCount (paired : tape.Paired other) : other.frameCount = tape.frameCount :=
  paired.sheet.frameCount

theorem isExhausted (paired : tape.Paired other) : other.isExhausted = tape.isExhausted := by
  rw [Tape.isExhausted, Tape.isExhausted, paired.rest]

theorem batchAhead (paired : tape.Paired other) : other.batchAhead = tape.batchAhead := by
  unfold Tape.batchAhead
  rw [opening_congr paired.position paired.rest, paired.position, paired.lastFrame, paired.rest]

theorem skip (paired : tape.Paired other) (count : Nat) (frame : UInt32) :
    (tape.skip count frame).Paired (other.skip count frame) :=
  ⟨paired.sheet, paired.name, congrArg (· + count) paired.position, rfl,
    congrArg (List.drop count) paired.rest⟩

/-- Both tapes fail alike, or give the same batch or none and are a pair again. -/
theorem next (paired : tape.Paired other) :
    (∃ failure, Tape.next tape = .error failure tape ∧ Tape.next other = .error failure other) ∨
    ∃ batch after afterOther, Tape.next tape = .ok batch after ∧
      Tape.next other = .ok batch afterOther ∧ after.Paired afterOther := by
  unfold Tape.next
  rw [paired.isExhausted, paired.batchAhead, paired.position]
  split
  · exact .inr ⟨none, tape, other, rfl, rfl, paired⟩
  · cases tape.batchAhead with
    | error failure => exact .inl ⟨failure, rfl, rfl⟩
    | ok ahead => exact .inr ⟨_, _, _, rfl, rfl, paired.skip _ _⟩

theorem take (paired : tape.Paired other) (frame : UInt32) :
    (∃ failure, Tape.take frame tape = .error failure tape ∧
      Tape.take frame other = .error failure other) ∨
    ∃ batch after afterOther, Tape.take frame tape = .ok batch after ∧
      Tape.take frame other = .ok batch afterOther ∧ after.Paired afterOther := by
  unfold Tape.take
  rw [peek_congr paired.position paired.rest, paired.position]
  cases tape.peek with
  | error failure => exact .inl ⟨failure, rfl, rfl⟩
  | ok due =>
      cases due with
      | none => exact .inr ⟨none, tape, other, rfl, rfl, paired⟩
      | some found =>
          by_cases due : found = frame
          · simp only [if_pos due]
            exact paired.next
          · by_cases missed : found < frame
            · simp only [if_neg due, if_pos missed]
              exact .inl ⟨_, rfl, rfl⟩
            · simp only [if_neg due, if_neg missed]
              exact .inr ⟨none, tape, other, rfl, rfl, paired⟩

end Paired

def written (sheet : MatchSheet) (packets : List UInt8) : List UInt8 :=
  Draft.finish { sheet, packets := packets.toArray } sheet.frameCount

theorem length_written (sheet : MatchSheet) (packets : List UInt8) :
    (written sheet packets).length =
      magic.length + 5 + sheet.bytes.length + packets.length := by
  change (magic ++ version :: Encoding.word32 (UInt32.ofNat sheet.bytes.length) ++
    sheet.bytes ++ packets).length = _
  simp only [List.length_append, List.length_cons, Encoding.length_word32]

theorem ofBytes_written {sheet : MatchSheet} (room : sheet.bytes.length < 2 ^ 32) (name : String)
    (packets : List UInt8) :
    ∃ tape, ofBytes name (written sheet packets) = .ok tape ∧ tape.sheet = sheet ∧
      tape.name = name ∧ tape.position = magic.length + 5 + sheet.bytes.length ∧
      tape.lastFrame = none ∧ tape.rest = packets := by
  obtain ⟨tape, opened, same, fresh, unread⟩ :=
    Draft.ofBytes_finish { sheet, packets := packets.toArray } room name
  obtain ⟨front, parted, start, place, -⟩ := opened_front opened
  have size := congrArg List.length parted
  have left : tape.rest.length = packets.length := congrArg List.length unread
  rw [List.length_append, left, start, ← place] at size
  change (written sheet packets).length = _ at size
  rw [length_written] at size
  exact ⟨tape, opened, same, (opened_of_ofBytes opened).name_eq, by omega, fresh, unread⟩

/-- Recordings with the same packets open as a pair if their sheets have the same seats. -/
theorem paired_of_written {sheet other : MatchSheet} (reseated : sheet.Reseated other)
    (room : sheet.bytes.length < 2 ^ 32) (name : String) (packets : List UInt8) :
    ∃ tape tape', ofBytes name (written sheet packets) = .ok tape ∧
      ofBytes name (written other packets) = .ok tape' ∧ tape.sheet = sheet ∧
      tape'.sheet = other ∧ tape.rest = packets ∧ tape.Paired tape' := by
  have roomOther : other.bytes.length < 2 ^ 32 := reseated.length_bytes ▸ room
  obtain ⟨tape, opened, rfl, named, place, fresh, unread⟩ := ofBytes_written room name packets
  obtain ⟨tape', opened', rfl, named', place', fresh', unread'⟩ :=
    ofBytes_written roomOther name packets
  refine ⟨tape, tape', opened, opened', rfl, rfl, unread, reseated, ?_, ?_, ?_, ?_⟩
  · rw [named', named]
  · rw [place', place, reseated.length_bytes]
  · rw [fresh', fresh]
  · rw [unread', unread]

end Tape

/-! ## Sessions -/

namespace Playback

/-- What a store answers to a checkpoint does not depend on the digest in it. -/
def Store.OverlooksDigest {σ : Type} (store : Store σ) (shelf : σ) : Prop :=
  ∀ name checkpoint digest,
    (store.save name { checkpoint with digest } shelf).1 = (store.save name checkpoint shelf).1

theorem Store.inFolder_overlooksDigest (folder : String) (tree : Files.Tree) :
    (Store.inFolder folder).OverlooksDigest tree := by
  intro name checkpoint digest
  have same := tree.writeDeep_congr (Files.Path.join folder name) checkpoint.bytes
    { checkpoint with digest }.bytes
  simp only [Store.inFolder, same]

namespace Session

/-- Two sessions stand behind the same frames of paired tapes, with arenas that differ in the
setup alone. -/
structure Mirrors (session other : Session) : Prop where
  tape : session.tape.Paired other.tape
  arena : ∃ setup, other.arena = session.arena.under setup ∧
    setup.map Setup.map = session.arena.setup.map Setup.map
  accumulator : other.accumulator = session.accumulator
  diverged : other.diverged = session.diverged
  request : other.request = session.request
  stopRaised : other.stopRaised = session.stopRaised
  reports : other.reports = session.reports

namespace Mirrors

variable {session other : Session}

theorem frame (mirrors : session.Mirrors other) : other.frame = session.frame := by
  obtain ⟨setup, same, -⟩ := mirrors.arena
  rw [Session.frame, same]
  rfl

theorem checksum (mirrors : session.Mirrors other) :
    other.arena.checksum = session.arena.checksum := by
  obtain ⟨setup, same, -⟩ := mirrors.arena
  rw [same, Arena.checksum_under]

theorem frameCount (mirrors : session.Mirrors other) : other.frameCount = session.frameCount :=
  mirrors.tape.frameCount

theorem framesLeft (mirrors : session.Mirrors other) : other.framesLeft = session.framesLeft := by
  rw [Session.framesLeft, Session.framesLeft, mirrors.frameCount, mirrors.frame]

theorem due? (mirrors : session.Mirrors other) : other.due? = session.due? := by
  rw [Session.due?, Session.due?, mirrors.request, mirrors.frame]

theorem outsideRequest? (mirrors : session.Mirrors other) :
    other.outsideRequest? = session.outsideRequest? := by
  rw [Session.outsideRequest?, Session.outsideRequest?, mirrors.request, mirrors.frame,
    mirrors.frameCount]

theorem verdict (mirrors : session.Mirrors other) (halt : Halt) :
    other.verdict halt = session.verdict halt := by
  cases halt <;>
    simp only [Session.verdict, mirrors.frame, mirrors.checksum, mirrors.accumulator]

/-- The checkpoints of both sessions differ in the digest alone. -/
theorem checkpoint (mirrors : session.Mirrors other) :
    other.checkpoint = { session.checkpoint with digest := other.tape.digest } := by
  have frame := mirrors.frame
  obtain ⟨setup, same, map⟩ := mirrors.arena
  have state : other.arena.save = session.arena.save := by rw [same, Arena.save_under map]
  simp only [Session.checkpoint, mirrors.tape.name, mirrors.tape.sheet.map,
    mirrors.tape.sheet.host, frame, mirrors.accumulator, mirrors.tape.position, state]

theorem execute (mirrors : session.Mirrors other) (batch : Option Tape.Batch)
    {after afterOther : Tape} (paired : after.Paired afterOther) :
    (Session.execute batch { other with tape := afterOther }).1 =
        (Session.execute batch { session with tape := after }).1 ∧
      (Session.execute batch { session with tape := after }).2.Mirrors
        (Session.execute batch { other with tape := afterOther }).2 := by
  have frame := mirrors.frame
  obtain ⟨setup, same, map⟩ := mirrors.arena
  have played := Arena.playFrame_under setup ((batch.map Tape.Batch.orders).getD []) session.arena
  have kept := Arena.setup_playFrame ((batch.map Tape.Batch.orders).getD []) session.arena
  rw [← same] at played
  -- A session plays its frames without this name, so both facts are opened to meet it.
  unfold Arena.playFrame at played kept
  rw [Session.frame, Session.frame] at frame
  refine ⟨?_, paired, ⟨setup, ?_, ?_⟩, ?_, ?_, mirrors.request, mirrors.stopRaised, ?_⟩
  all_goals
    simp only [Session.execute, played, kept, Arena.checksum_under, mirrors.accumulator,
      mirrors.diverged, mirrors.reports, frame, map]

/-- Both sessions fail to play the next frame, or both play it with the same report. -/
theorem step (mirrors : session.Mirrors other) :
    (∃ failure, Session.step session = .error failure session ∧
      Session.step other = .error failure other) ∨
    ∃ report next nextOther, Session.step session = .ok report next ∧
      Session.step other = .ok report nextOther ∧ next.Mirrors nextOther := by
  have frame : other.arena.frame = session.arena.frame := mirrors.frame
  rcases mirrors.tape.take session.arena.frame with ⟨failure, failed, failedOther⟩ |
    ⟨batch, after, afterOther, taken, takenOther, paired⟩
  · rw [← frame] at failedOther
    exact .inl ⟨failure, step_of_take_error failed, step_of_take_error failedOther⟩
  · rw [← frame] at takenOther
    obtain ⟨report, goes⟩ := mirrors.execute batch paired
    have stepped := step_of_take takenOther
    rw [report] at stepped
    exact .inr ⟨_, _, _, step_of_take taken, stepped, goes⟩

end Mirrors

inductive EndAlike :
    EStateM.Result Failure Session Halt → EStateM.Result Failure Session Halt → Prop where
  | ok (halt : Halt) {final other : Session} (mirrors : final.Mirrors other) :
      EndAlike (.ok halt final) (.ok halt other)
  | error (failure : Failure) {final other : Session} (mirrors : final.Mirrors other) :
      EndAlike (.error failure final) (.error failure other)

theorem EndAlike.of_ok {halt : Halt} {final : Session}
    {other : EStateM.Result Failure Session Halt} (alike : EndAlike (.ok halt final) other) :
    ∃ finalOther, other = .ok halt finalOther ∧ final.Mirrors finalOther := by
  cases alike with
  | ok _ mirrors => exact ⟨_, rfl, mirrors⟩

theorem EndAlike.to_ok {halt : Halt} {finalOther : Session}
    {result : EStateM.Result Failure Session Halt} (alike : EndAlike result (.ok halt finalOther)) :
    ∃ final, result = .ok halt final := by
  cases alike with
  | ok _ mirrors => exact ⟨_, rfl⟩

theorem EndAlike.ending {result other : EStateM.Result Failure Session Halt}
    (alike : EndAlike result other) : (ending result).Mirrors (ending other) := by
  cases alike with
  | ok halt mirrors => exact mirrors
  | error failure mirrors => exact mirrors

theorem EndAlike.outcome {result other : EStateM.Result Failure Session Halt}
    (alike : EndAlike result other) : outcome other = outcome result := by
  cases alike with
  | ok halt mirrors => exact congrArg Except.ok (mirrors.verdict halt)
  | error failure mirrors => rfl

namespace Mirrors

variable {session other : Session}

theorem playFrames (mirrors : session.Mirrors other) (left : Nat) :
    EndAlike (Session.playFrames left session) (Session.playFrames left other) := by
  induction left generalizing session other with
  | zero =>
      simp only [Session.playFrames, mirrors.stopRaised]
      exact .ok _ mirrors
  | succ left ih =>
      cases running : session.stopRaised with
      | true =>
          simp only [Session.playFrames, mirrors.stopRaised, running, if_true]
          exact .ok .stopped mirrors
      | false =>
          have runningOther := mirrors.stopRaised.trans running
          rcases mirrors.step with ⟨failure, failed, failedOther⟩ |
            ⟨report, next, nextOther, stepped, steppedOther, goes⟩
          · rw [playFrames_succ_error running failed,
              playFrames_succ_error runningOther failedOther]
            exact .error failure mirrors
          · cases due : next.due? with
            | some name =>
                rw [playFrames_succ_due running stepped due,
                  playFrames_succ_due runningOther steppedOther (goes.due?.trans due)]
                exact .ok (.due name) goes
            | none =>
                rw [playFrames_succ running stepped due,
                  playFrames_succ runningOther steppedOther (goes.due?.trans due)]
                cases report.contradicted? with
                | some expected => exact .ok _ goes
                | none => exact ih goes

theorem play (mirrors : session.Mirrors other) :
    EndAlike (Session.play session) (Session.play other) := by
  rw [Session.play, Session.play, mirrors.framesLeft]
  exact mirrors.playFrames session.framesLeft

/-- Sessions that both come to a checkpoint save it with the same success. -/
theorem run_due {σ : Type} {store : Store σ} {shelf : σ} {name : String}
    {final finalOther : Session} (overlooks : store.OverlooksDigest shelf)
    (inside : session.outsideRequest? = none) (insideOther : other.outsideRequest? = none)
    (plays : Session.play session = .ok (.due name) final)
    (playsOther : Session.play other = .ok (.due name) finalOther)
    (goes : final.Mirrors finalOther) :
    (Session.run store other shelf).1 = (Session.run store session shelf).1 ∧
      (Session.run store session shelf).2.1.Mirrors (Session.run store other shelf).2.1 := by
  have answer := overlooks name final.checkpoint finalOther.tape.digest
  rw [← goes.checkpoint] at answer
  obtain ⟨answered, after, saves⟩ : ∃ answered after,
      store.save name final.checkpoint shelf = (answered, after) := ⟨_, _, rfl⟩
  obtain ⟨answeredOther, afterOther, savesOther⟩ : ∃ answered after,
      store.save name finalOther.checkpoint shelf = (answered, after) := ⟨_, _, rfl⟩
  rw [saves, savesOther] at answer
  obtain rfl : answeredOther = answered := answer
  cases answeredOther with
  | error cause =>
      rw [run_due_error inside plays saves, run_due_error insideOther playsOther savesOther]
      exact ⟨rfl, goes⟩
  | ok saved =>
      rw [Session.run_due inside plays saves, Session.run_due insideOther playsOther savesOther,
        goes.frame]
      exact ⟨rfl, goes⟩

/-- Both sessions run to the same outcome and make the same reports. -/
theorem run (mirrors : session.Mirrors other) {σ : Type} {store : Store σ} {shelf : σ}
    (overlooks : session.request = none ∨ store.OverlooksDigest shelf) :
    (Session.run store other shelf).1 = (Session.run store session shelf).1 ∧
      (Session.run store session shelf).2.1.Mirrors (Session.run store other shelf).2.1 := by
  have asks := mirrors.outsideRequest?
  have alike := mirrors.play
  cases outside : session.outsideRequest? with
  | some request =>
      rw [outside] at asks
      simp only [Session.run, outside, asks, outsideFailure, mirrors.frame, mirrors.frameCount]
      exact ⟨trivial, mirrors⟩
  | none =>
      rw [outside] at asks
      by_cases due : ∃ name final, Session.play session = .ok (.due name) final
      · obtain ⟨name, final, plays⟩ := due
        rw [plays] at alike
        obtain ⟨finalOther, playsOther, goes⟩ := alike.of_ok
        have asked : session.request ≠ none := fun plain =>
          ne_due_of_playFrames plain plays name rfl
        exact run_due (overlooks.resolve_left asked) outside asks plays playsOther goes
      · -- Neither session comes to a checkpoint, so no store is asked.
        have free : ∀ name final, Session.play session ≠ .ok (.due name) final :=
          fun name final plays => due ⟨name, final, plays⟩
        have freeOther : ∀ name final, Session.play other ≠ .ok (.due name) final := by
          intro name finalOther plays
          rw [plays] at alike
          obtain ⟨final, found⟩ := alike.to_ok
          exact free name final found
        rw [run_of_play store shelf outside free, run_of_play store shelf asks freeOther]
        exact ⟨alike.outcome, alike.ending⟩

theorem of_paired {tape tape' : Tape} {setup setup' : Setup} (paired : tape.Paired tape')
    (reseated : setup.Reseated setup') :
    (resume tape (.begin setup) 0).Mirrors (resume tape' (.begin setup') 0) := by
  have begun : (Arena.begin setup).setup = some setup := (Arena.at_begin setup).setup
  refine ⟨paired, ⟨some setup', Arena.begin_reseated reseated, ?_⟩, rfl, rfl, rfl, rfl, rfl⟩
  change some setup'.map = (Arena.begin setup).setup.map Setup.map
  rw [begun, reseated.map]
  rfl

theorem asking (mirrors : session.Mirrors other) (request : Option SaveRequest) :
    Mirrors { session with request } { other with request } :=
  ⟨mirrors.tape, mirrors.arena, mirrors.accumulator, mirrors.diverged, rfl, mirrors.stopRaised,
    mirrors.reports⟩

end Mirrors

/-- Whatever checkpoint they are asked for, the sessions run to the same outcome and make the same
reports.  A store that a checkpoint is given to must not look at the digest in it. -/
def RunAlike (session other : Session) : Prop :=
  ∀ (request : Option SaveRequest) {σ : Type} (store : Store σ) (shelf : σ),
    request = none ∨ store.OverlooksDigest shelf →
      (run store { other with request } shelf).1 = (run store { session with request } shelf).1 ∧
      (run store { other with request } shelf).2.1.reports =
        (run store { session with request } shelf).2.1.reports

theorem Mirrors.runAlike {session other : Session} (mirrors : session.Mirrors other) :
    session.RunAlike other := by
  intro request σ store shelf overlooks
  obtain ⟨outcome, goes⟩ := (mirrors.asking request).run overlooks
  exact ⟨outcome, goes.reports⟩

/-- The order of the seats on a sheet makes no difference.  Both sheets have a setup or neither
does.  The match then begins with the same state but for the setup itself, it is recorded in the
name of the same player, and whatever packets stand behind the two sheets, the recordings open
and are played with the same reports to the same outcome.  A folder of checkpoints does not look
at digests. -/
theorem reseated_runs_alike {sheet other : MatchSheet} (reseated : sheet.Reseated other) :
    ((∃ setup, Setup.ofSheet sheet = .ok setup) ↔ ∃ setup, Setup.ofSheet other = .ok setup) ∧
    (∀ setup setup', Setup.ofSheet sheet = .ok setup → Setup.ofSheet other = .ok setup' →
      Arena.begin setup' = { Arena.begin setup with setup := some setup' } ∧
      (∀ interval, ∃ recording recording',
        Tape.Recording.begin sheet interval = .ok recording ∧
        Tape.Recording.begin other interval = .ok recording' ∧
        recording'.arena = { recording.arena with setup := some setup' } ∧
        recording'.host = recording.host) ∧
      ∀ tape tape' : Tape, tape.sheet = sheet → tape'.sheet = other → tape.Paired tape' →
        ∃ session session', start tape = .ok session ∧ start tape' = .ok session' ∧
          session.RunAlike session') ∧
    (sheet.bytes.length < 2 ^ 32 → ∀ name packets, ∃ tape tape',
      Tape.ofBytes name (Tape.written sheet packets) = .ok tape ∧
      Tape.ofBytes name (Tape.written other packets) = .ok tape' ∧
      tape.sheet = sheet ∧ tape'.sheet = other ∧ tape.rest = packets ∧ tape.Paired tape') ∧
    ∀ folder tree, (Store.inFolder folder).OverlooksDigest tree := by
  refine ⟨⟨?_, ?_⟩, ?_, ?_, Store.inFolder_overlooksDigest⟩
  · rintro ⟨setup, valid⟩
    obtain ⟨setup', valid', -⟩ := Setup.exists_of_reseated reseated valid
    exact ⟨setup', valid'⟩
  · rintro ⟨setup', valid'⟩
    obtain ⟨setup, valid, -⟩ := Setup.exists_of_reseated reseated.symm valid'
    exact ⟨setup, valid⟩
  · intro setup setup' valid valid'
    obtain ⟨found, again, seats⟩ := Setup.exists_of_reseated reseated valid
    obtain rfl : found = setup' := Except.ok.inj (again.symm.trans valid')
    refine ⟨Arena.begin_reseated seats, Tape.Recording.begin_reseated valid valid' seats, ?_⟩
    rintro tape tape' rfl rfl paired
    have started : start tape = .ok (resume tape (.begin setup) 0) := by rw [start, valid]
    have started' : start tape' = .ok (resume tape' (.begin found) 0) := by rw [start, valid']
    exact ⟨_, _, started, started', (Mirrors.of_paired paired seats).runAlike⟩
  · exact Tape.paired_of_written reseated

def sharing : MatchSheet where
  map := "Twin Rivers"
  host := "a"
  seed := 5
  roster := [⟨4, "b", 1⟩, ⟨1, "a", 2⟩, ⟨4, "a", 0⟩]

def sharingOther : MatchSheet :=
  { sharing with roster := [⟨4, "a", 0⟩, ⟨4, "b", 1⟩, ⟨1, "a", 2⟩] }

theorem reseated_runs_alike_sharing :
    ∃ setup setup', Setup.ofSheet sharing = .ok setup ∧ Setup.ofSheet sharingOther = .ok setup' ∧
      setup ≠ setup' ∧ Arena.begin setup' = { Arena.begin setup with setup := some setup' } ∧
      ∀ name packets, ∃ tape tape' session session',
        Tape.ofBytes name (Tape.written sharing packets) = .ok tape ∧
        Tape.ofBytes name (Tape.written sharingOther packets) = .ok tape' ∧
        start tape = .ok session ∧ start tape' = .ok session' ∧ session.RunAlike session' := by
  have reseated : sharing.Reseated sharingOther := .of_perm (by decide)
  have room : sharing.bytes.length < 2 ^ 32 := by decide +kernel
  obtain ⟨-, runs, opens, -⟩ := reseated_runs_alike reseated
  have valid : Setup.ofSheet sharing =
      .ok ⟨"a", "Twin Rivers", 5, [⟨1, "a", 2⟩, ⟨4, "b", 1⟩, ⟨4, "a", 0⟩]⟩ := by
    refine Setup.ofSheet_eq_ok_iff.mpr ⟨by decide, ?_⟩
    simp [sharing, Place.taken, Place.before, List.mergeSort]
  have valid' : Setup.ofSheet sharingOther =
      .ok ⟨"a", "Twin Rivers", 5, [⟨1, "a", 2⟩, ⟨4, "a", 0⟩, ⟨4, "b", 1⟩]⟩ := by
    refine Setup.ofSheet_eq_ok_iff.mpr ⟨by decide, ?_⟩
    simp [sharingOther, sharing, Place.taken, Place.before, List.mergeSort]
  obtain ⟨begins, -, plays⟩ := runs _ _ valid valid'
  refine ⟨_, _, valid, valid', by decide, begins, fun name packets => ?_⟩
  obtain ⟨tape, tape', opened, opened', same, same', -, paired⟩ := opens room name packets
  obtain ⟨session, session', started, started', alike⟩ := plays tape tape' same same' paired
  exact ⟨tape, tape', session, session', opened, opened', started, started', alike⟩

end Session

end Playback

end MatchTape

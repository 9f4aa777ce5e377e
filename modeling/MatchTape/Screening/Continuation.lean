import MatchTape.Playback.Resumption
import MatchTape.Screening.Sequence

/-!
# Playing on from a checkpoint

The first of the given recordings is resumed from a checkpoint and played to its
end.
-/

namespace MatchTape.Screening

open Playback World

/-- The outcome of playing on: an exit code, a report, and the arena it leaves. -/
structure Continuation where
  code : Nat
  text : String
  arena : Arena

/-- The last line of a report and the exit code for how the resumption ended. -/
def ending : Except Failure Verdict → String × Nat
  | .ok (.completed _ _ _) => (line "Replay completed successfully", 0)
  | .ok (.diverged _ _ _) => (line "CRC Mismatch detected!", 1)
  | _ => ("", 1)

def resultOf {ε σ α : Type} : EStateM.Result ε σ α → Except ε α × σ
  | .ok value state => (.ok value, state)
  | .error error state => (.error error, state)

def continueFrom {σ : Type} (desk : Desk σ) (options : Options) (sources : List String)
    (checkpoint : String) (standing : Standing σ) : Continuation :=
  match sources with
  | [] => ⟨1, "", standing.arena⟩
  | source :: _ =>
      let contents := desk.read standing.shelf (Files.Path.join options.recordings source)
      match Resumption.loadRecording source contents (.begin standing.arena) with
      | .error _ resumption => ⟨1, "", resumption.arena⟩
      | .ok () resumption =>
          let found := desk.store.load checkpoint standing.shelf
          match Resumption.loadCheckpoint checkpoint found resumption with
          | .error _ resumption => ⟨1, "", resumption.arena⟩
          | .ok () resumption =>
              let total := resumption.frameCount
              let (result, resumption) := resultOf (Resumption.resume resumption)
              let (last, code) := ending result
              ⟨code,
                lines (progressLines options.progressInterval total resumption.reports.toList) ++
                  line (elapsedLine 0 resumption.frame total) ++ last,
                resumption.arena⟩

end MatchTape.Screening

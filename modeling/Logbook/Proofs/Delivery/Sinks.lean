import Logbook.Proofs.Rotation.Size
import Logbook.Proofs.Rotation.Timed
import Logbook.Store

/-! # What a sink keeps

    A sink is known by its name, and a memory sink hands on to its target.  Whatever
    becomes of a text or of a record, the name and the target stay; a sink that is
    closed keeps its name and gets no target that it had not.
-/

namespace Logbook

/-! ## The name -/

namespace LogFile

variable {f f' : LogFile} {fs fs' : FileSystem}

/-- A file that is opened keeps its path. -/
theorem path_reopen (h : f.reopen fs = (.ok f', fs')) : f'.path = f.path := by
  rcases reopen_cases h with ⟨-, heq, -⟩ | ⟨-, r₁, fs₁, -, ⟨⟨e, heq⟩, -⟩ | ⟨-, id, -, heq⟩⟩
  · rw [Except.ok.inj heq]
  · cases heq
  · rw [Except.ok.inj heq]
    rfl

/-- A file that a line is written to keeps its path. -/
theorem path_writeLine {text terminator : String}
    (h : f.writeLine text terminator fs = (.ok f', fs')) : f'.path = f.path := by
  rcases writeLine_cases h with ⟨e, -, heq⟩ | ⟨f₁, fs₁, handle, handle', hreopen, -, -, heq⟩
  · cases heq
  · have hpath := path_reopen hreopen
    rw [Except.ok.inj heq]
    exact hpath

end LogFile

namespace Rotation.Policy

/-- A policy that is asked leaves the live file at its path. -/
theorem path_isDue (p : Policy) (length : Nat) (f : LogFile) (w : World) :
    (p.isDue length f w).2.2.1.path = f.path := by
  cases p with
  | size p =>
    unfold isDue
    dsimp only
    split
    · rfl
    · next heq =>
      unfold SizeRotation.isDue at heq
      split at heq
      · cases heq
        rfl
      · split at heq
        · cases heq
        · next hreopen =>
          cases heq
          exact LogFile.path_reopen hreopen
  | _ => rfl

/-- A rollover leaves the live file at its path. -/
theorem path_rollOver (p : Policy) (f : LogFile) (w : World) :
    (p.rollOver f w).2.2.1.path = f.path := by
  cases p with
  | never => rfl
  | size p =>
    show (p.rollOver f w).2.1.path = f.path
    rcases hroll : p.rollOver f w with ⟨r, f', w'⟩
    rcases rollOver_size_cases hroll with
      ⟨r₁, w₁, -, ⟨e, -, -, rfl, -⟩ | ⟨-, ⟨e, -, -, rfl⟩ | ⟨-, hrenewed⟩⟩⟩
    · rfl
    · rfl
    · rcases hrenewed with ⟨-, rfl, -⟩ | ⟨-, hreopen⟩
      · rfl
      · exact (LogFile.path_reopen hreopen :)
  | watched p =>
    unfold rollOver WatchedFile.rollOver
    dsimp only
    rcases hreopen : f.close.reopen w.files with ⟨_ | f', fs⟩
    · rfl
    · exact (LogFile.path_reopen hreopen :)
  | timed p =>
    have htimed : (p.rollOver f w).2.1.path = f.path := by
      rcases hroll : p.rollOver f w with ⟨r, f', w'⟩
      rcases rollOver_cases hroll with ⟨r₁, w₁, -, ⟨e, -, -, rfl, -⟩ | ⟨-, r₂, fs₂, -, hcases⟩⟩
      · rfl
      · rcases hcases with ⟨e, -, -, rfl, -⟩ | ⟨-, ⟨-, rfl, -⟩ | ⟨-, r₃, fs₃, hreopen, -, hcases⟩⟩
        · rfl
        · rfl
        · rcases hcases with ⟨e, -, -, rfl⟩ | ⟨rfl, -⟩
          · rfl
          · exact (LogFile.path_reopen hreopen :)
    unfold rollOver
    dsimp only
    split <;> next heq =>
      rw [heq] at htimed
      exact htimed

end Rotation.Policy

/-- A file sink that makes ready for a line keeps its path. -/
theorem FileSink.path_prepare (s : FileSink) (text : String) (w : World) :
    (s.prepare text w).2.1.file.path = s.file.path := by
  have hdue : (s.isDue text w).2.1.file.path = s.file.path :=
    s.policy.path_isDue (s.lineLength text) s.file w
  unfold prepare
  generalize s.isDue text w = asked at hdue
  rcases asked with ⟨e | ⟨_ | _⟩, s₁, w₁⟩
  · exact hdue
  · exact hdue
  · exact (Rotation.Policy.path_rollOver _ _ _).trans hdue

/-- A file sink that writes a line keeps its path. -/
theorem FileSink.path_emit (s : FileSink) (text : String) (w : World) :
    (s.emit text w).2.1.file.path = s.file.path := by
  have hprepare := s.path_prepare text w
  unfold emit
  dsimp only
  split
  · exact hprepare
  · next hwrite => exact (LogFile.path_writeLine hwrite).trans hprepare

/-- A sink keeps its name whatever becomes of a text. -/
theorem Sink.name_writeText (text : String) (w : World) (sink : Sink) :
    (sink.writeText text w).2.1.name = sink.name := by
  cases sink with
  | file s =>
    have hpath := s.path_emit text w
    show ((s.emit text w).2.1.file.path.fileName?).getD "file" = s.file.path.fileName?.getD "file"
    rw [hpath]
  | _ => rfl

/-- A sink keeps its name when it is closed. -/
theorem Sink.name_close (w : World) (sink : Sink) : (sink.close w).2.name = sink.name := by
  cases sink with
  | probe p =>
    show (if p.notesClose then p.note "closed" else p).name = p.name
    split <;> rfl
  | _ => rfl

/-! ## The target -/

/-- The target of a sink. -/
def Sink.target? : Sink → Option HandlerId
  | .memory s => s.target?
  | _ => none

/-- A sink that writes texts has no target, whatever becomes of a text. -/
theorem Sink.target?_writeText (text : String) (w : World) (sink : Sink) :
    (sink.writeText text w).2.1.target? = sink.target? := by
  cases sink <;> rfl

/-- A closed sink has no target that it had not before. -/
theorem Sink.target?_close {w : World} {sink : Sink} {t : HandlerId}
    (h : (sink.close w).2.target? = some t) : sink.target? = some t := by
  cases sink with
  | memory s => cases h
  | _ => exact h

/-- What a memory sink hands on when it is given a record, and the sink after that. -/
def MemorySink.receive (s : MemorySink) (r : Record) :
    Option (HandlerId × List Record) × MemorySink :=
  if (s.push r).isDue r.level then (s.push r).drain else (none, s.push r)

namespace MemorySink

variable {s : MemorySink} {r : Record} {job : Option (HandlerId × List Record)}

/-- What a sink hands on at all it hands on to its target. -/
theorem target_of_drain {t : HandlerId} {records : List Record}
    (h : s.drain.1 = some (t, records)) : s.target? = some t := by
  unfold drain at h
  split at h
  · next htarget =>
    obtain ⟨rfl, -⟩ := Prod.mk.inj (Option.some.inj h)
    exact htarget
  · cases h

theorem target?_drain (s : MemorySink) : s.drain.2.target? = s.target? := by
  unfold drain
  split <;> rfl

theorem target?_receive (s : MemorySink) (r : Record) : (s.receive r).2.target? = s.target? := by
  unfold receive
  split
  · exact (s.push r).target?_drain
  · rfl

theorem target_of_receive {t : HandlerId} {records : List Record}
    (h : (s.receive r).1 = some (t, records)) : s.target? = some t := by
  unfold receive at h
  split at h
  · exact (s.push r).target_of_drain h
  · cases h

/-- What a sink hands on when it is closed, and the sink before it is emptied. -/
def finish (s : MemorySink) : Option (HandlerId × List Record) × MemorySink :=
  if s.flushOnClose then s.drain else (none, s)

theorem target?_finish (s : MemorySink) : s.finish.2.target? = s.target? := by
  unfold finish
  split
  · exact s.target?_drain
  · rfl

theorem target_of_finish {t : HandlerId} {records : List Record}
    (h : s.finish.1 = some (t, records)) : s.target? = some t := by
  unfold finish at h
  split at h
  · exact target_of_drain h
  · cases h

end MemorySink

end Logbook

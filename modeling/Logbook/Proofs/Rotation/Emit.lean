import Logbook.Proofs.Files.Alike
import Logbook.Sink

/-! # A line of a file sink

    The rollover that may come before a line and the line itself are told apart, and the
    length of a line is that of its bytes.  Lines, flushes and closes are the steps of a
    run, and time passes between them.
-/

namespace Logbook

/-! ## Lengths of lines -/

theorem LogFile.length_lineBytes (text terminator : String) :
    (lineBytes text terminator).length = text.utf8ByteSize + terminator.utf8ByteSize := by
  have hloop : ∀ (bs : ByteArray) (i : Nat) (r : List UInt8),
      (ByteArray.toList.loop bs i r).length = (bs.size - i) + r.length := by
    intro bs i r
    fun_induction ByteArray.toList.loop bs i r with
    | case1 i r hi ih =>
      rw [ih, List.length_cons]
      omega
    | case2 i r hi =>
      rw [List.length_reverse]
      omega
  have hbytes : ∀ s : String, s.toUTF8.toList.length = s.utf8ByteSize := by
    intro s
    rw [ByteArray.toList, hloop, String.toUTF8_eq_toByteArray, String.size_toByteArray]
    simp
  rw [lineBytes, List.length_append, hbytes, hbytes]

/-- The live file of a sink with a policy, before it is opened. -/
def FileSinkOptions.liveFile (o : FileSinkOptions) : LogFile := { path := o.path, delay := o.delay }

theorem FileSinkOptions.liveFile_tracks (o : FileSinkOptions) {d : Location} {x : String}
    {fs : FileSystem} : o.liveFile.Tracks d x fs := ⟨rfl, nofun⟩

namespace FileSink

/-- **A sink with a policy** appends to its live file, which is opened unless it waits for a
    line. -/
theorem build_ok {o : FileSinkOptions} {policy : Rotation.Policy} {s : FileSink} {w w' : World}
    (hpolicy : o.policy? = some policy) (h : build o w = (.ok s, w')) :
    ∃ f, o.liveFile.Renewed w.files f w'.files ∧
      s.file = { f with namer? := o.namer?, rotator? := o.rotator? } ∧
      s.policy = policy.attach s.file w' ∧ s.terminator = o.terminator := by
  have hmode : o.openingMode = .append := by simp [FileSinkOptions.openingMode, hpolicy]
  simp only [build, hmode, hpolicy, Option.getD_some] at h
  cases hmake : LogFile.make o.path .append o.delay w.files with
  | mk r fs =>
    rw [hmake] at h
    cases r with
    | error e => cases (Prod.mk.inj h).1
    | ok f =>
      simp only [Prod.mk.injEq, Except.ok.injEq] at h
      obtain ⟨rfl, rfl⟩ := h
      refine ⟨f, ?_, rfl, rfl, rfl⟩
      unfold LogFile.make at hmake
      dsimp only at hmake
      split at hmake
      · next hdelay =>
        obtain ⟨hf, rfl⟩ := Prod.mk.inj hmake
        exact .inl ⟨hdelay, (Except.ok.inj hf).symm, rfl⟩
      · next hdelay => exact .inr ⟨Bool.eq_false_iff.mpr hdelay, hmake⟩

/-- The bytes of a line that has been written; none if it could not be. -/
def written (s : FileSink) (text : String) : Except LogError Unit → List UInt8
  | .ok () => LogFile.lineBytes text s.terminator
  | .error _ => []

/-- **Emit**: what comes before the line is done and, if it failed, reported; then the
    line is written in any case. -/
theorem emit_cases {s s' : FileSink} {w w' : World} {text : String} {r : Except LogError Unit}
    (h : s.emit text w = (r, s', w')) :
    ∃ r₁ s₁ w₁, ∃ w₂ : World, s.prepare text w = (r₁, s₁, w₁) ∧ w₂.files = w₁.files ∧
      w₂.clocks = w₁.clocks ∧
      ((∃ e fs, s₁.file.writeLine text s₁.terminator w₁.files = (.error e, fs) ∧
          r = .error e ∧ s' = s₁ ∧ w' = { w₂ with files := fs }) ∨
        ∃ f fs, s₁.file.writeLine text s₁.terminator w₁.files = (.ok f, fs) ∧
          r = .ok () ∧ s' = { s₁ with file := f } ∧ w' = { w₂ with files := fs }) := by
  unfold emit at h
  rcases hprepare : s.prepare text w with ⟨r₁, s₁, w₁⟩
  rw [hprepare] at h
  dsimp only at h
  -- What is reported changes neither the files nor the clocks.
  split at h
  · next e fs hwrite =>
    simp only [Prod.mk.injEq] at h
    obtain ⟨hr, hs, hw⟩ := h
    refine ⟨r₁, s₁, w₁, _, rfl, ?_, ?_, .inl ⟨e, fs, ?_, hr.symm, hs.symm, hw.symm⟩⟩
    · cases r₁ <;> rfl
    · cases r₁ <;> rfl
    · cases r₁ <;> exact hwrite
  · next f fs hwrite =>
    simp only [Prod.mk.injEq] at h
    obtain ⟨hr, hs, hw⟩ := h
    refine ⟨r₁, s₁, w₁, _, rfl, ?_, ?_, .inr ⟨f, fs, ?_, hr.symm, hs.symm, hw.symm⟩⟩
    · cases r₁ <;> rfl
    · cases r₁ <;> rfl
    · cases r₁ <;> exact hwrite

/-- A line with which nothing fails. -/
theorem emit_ok {s s' : FileSink} {w w' : World} {text : String}
    (hok : (s.prepare text w).1 = .ok ()) (h : s.emit text w = (.ok (), s', w')) :
    ∃ s₁ w₁ f, s.prepare text w = (.ok (), s₁, w₁) ∧
      s₁.file.writeLine text s₁.terminator w₁.files = (.ok f, w'.files) ∧
      s' = { s₁ with file := f } := by
  obtain ⟨r₁, s₁, w₁, w₂, hprepare, -, -, hwrite⟩ := emit_cases h
  rw [hprepare] at hok
  obtain rfl : r₁ = .ok () := hok
  rcases hwrite with ⟨e, fs, -, heq, -⟩ | ⟨f, fs, hwrite, -, rfl, rfl⟩
  · cases heq
  · exact ⟨s₁, w₁, f, hprepare, hwrite, rfl⟩

/-! ## Steps -/

/-- **Step**: a line, a flush, a close, or something elsewhere that leaves the names and
    the contents of all files as they are. -/
inductive Step : FileSink × World → FileSink × World → Prop where
  | emit {s s' : FileSink} {w w' : World} {r : Except LogError Unit} (text : String)
      (h : s.emit text w = (r, s', w')) : Step (s, w) (s', w')
  | flush {s : FileSink} {w : World} {r : Except LogError Unit}
      (h : (Sink.file s).flush w = r) : Step (s, w) (s, w)
  | close {s s' : FileSink} {w : World} {r : Except LogError Unit}
      (h : (Sink.file s).close w = (r, .file s')) : Step (s, w) (s', w)
  | elsewhere {s : FileSink} {w w' : World} (h : w.files.Alike w'.files) : Step (s, w) (s, w')

end FileSink

end Logbook

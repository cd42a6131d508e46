import Logbook.Proofs.Files.Live
import Logbook.Rotation.Size

/-! # Numbered backups

    The live file has number zero, its backups have the numbers from one.  What is kept
    under the numbers, the oldest first, is the history of the live file.  To shift the
    backups moves each into a place that is free; only in the last place something can
    get lost, and nothing ever changes its place in the history.
-/

namespace Logbook

namespace FileSystem

variable {fs fs' : FileSystem} {p q : Path} {d : Location} {x y z : String} {own : String → Bool}

/-! ## Regular files -/

/-- The content of the regular file that a path names, a link not followed; none if
    there is something else or nothing. -/
def regular? (fs : FileSystem) (p : Path) : Option (List UInt8) :=
  match fs.status false p with
  | .ok (.file id) => some (fs.contentOf id)
  | _ => none

/-- A regular file is one that is shown. -/
theorem Leads.regular? (h : fs.Leads p d x) : fs.regular? p =
    match fs.shown p d x with
    | some (.file id) => some (fs.contentOf id)
    | _ => none := by
  rw [FileSystem.regular?]
  cases hs : fs.shown p d x with
  | none =>
    obtain ⟨err, herr⟩ := h.status_of_none hs false
    rw [herr]
  | some e =>
    rw [h.status_of_some hs (.inl rfl)]
    cases e <;> rfl

/-- Paths that lead to the same entry, and are as short, name the same content. -/
theorem Leads.regular?_congr (h : fs.Leads p d x) (h' : fs'.Leads p d x)
    (hentry : fs'.entryAt? (d ++ [x]) = fs.entryAt? (d ++ [x]))
    (hbytes : fs'.bytesAt (d ++ [x]) = fs.bytesAt (d ++ [x])) : fs'.regular? p = fs.regular? p := by
  have hshown : fs'.shown p d x = fs.shown p d x := by rw [shown, shown, hentry]
  rw [h.regular?, h'.regular?, hshown]
  cases hs : fs.shown p d x with
  | none => rfl
  | some e =>
    cases e with
    | file id =>
      have hold := (shown_eq_some_iff.mp hs).2
      rw [bytesAt_of_file hold, bytesAt_of_file (hentry.trans hold)] at hbytes
      exact congrArg some hbytes
    | directory id => rfl
    | link t => rfl

/-- What does not exist is no regular file. -/
theorem Leads.regular?_of_not_exists (h : fs.Leads p d x) (hno : fs.exists? p = false) :
    fs.regular? p = none := by
  rw [h.regular?]
  split
  · next id hs =>
    have hex := h.exists_of_shown hs (by simp)
    rw [hno] at hex
    cases hex
  · rfl

/-- A location that holds nothing is no regular file, and does not exist. -/
theorem Leads.of_entry_none (h : fs.Leads p d x) (hnone : fs.entryAt? (d ++ [x]) = none) :
    fs.regular? p = none ∧ fs.exists? p = false := by
  have hno : fs.exists? p = false := by
    rw [Bool.eq_false_iff]
    intro hex
    obtain ⟨e, he⟩ := h.shown_of_exists hex
    rw [(shown_eq_some_iff.mp he).2] at hnone
    cases hnone
  exact ⟨h.regular?_of_not_exists hno, hno⟩

/-- The content of a short name is what its location holds. -/
theorem Leads.regular?_of_file (h : fs.Leads p d x) {id : FileId}
    (hs : fs.shown p d x = some (.file id)) : fs.regular? p = some (fs.bytesAt (d ++ [x])) := by
  rw [h.regular?, hs, bytesAt_of_file (shown_eq_some_iff.mp hs).2]

/-- The entry of one own name comes in place of that of another that does not exist, or
    nothing happens. -/
theorem renameReplacing_spec {r : Except LogError Unit} (hp : fs.Leads p d y)
    (hq : fs.Leads q d z) (hyz : y ≠ z) (hno : fs.exists? q = false)
    (h : fs.renameReplacing p q = (r, fs')) :
    (∃ e, r = .error e ∧ fs' = fs) ∨ r = .ok () ∧ fs' = fs.move (d ++ [y]) (d ++ [z]) ∧
      (∃ e, fs.shown p d y = some e) ∧ checkLength q = .ok () ∧ isTooLong z = false := by
  unfold renameReplacing at h
  cases hrename : fs.rename p q with
  | ok fs₁ =>
    rw [hrename] at h
    obtain ⟨rfl, rfl⟩ := Prod.mk.inj h
    obtain ⟨e, hs, hfits, -, rfl⟩ := hp.rename hq hyz hrename
    exact .inr ⟨rfl, rfl, ⟨e, hs⟩, hfits⟩
  | error e =>
    -- The second attempt finds what the first one found.
    rw [hrename, hno] at h
    simp only [Bool.false_eq_true, if_false, hrename] at h
    obtain ⟨rfl, rfl⟩ := Prod.mk.inj h
    exact .inl ⟨_, rfl, rfl⟩

end FileSystem

namespace Rotation

open FileSystem

/-! ## Numbers -/

/-- The path of the live file, which has number zero, or of a backup. -/
def numbered (path : Path) : Nat → Path
  | 0 => path
  | n + 1 => ⟨path.text ++ "." ++ toString (n + 1)⟩

/-- The name of the live file or of a backup in its directory. -/
def numberedName (x : String) : Nat → String
  | 0 => x
  | n + 1 => x ++ "." ++ toString (n + 1)

/-- The names of a live file and of its backups up to a number. -/
def isNumbered (x : String) (b : Nat) (y : String) : Bool :=
  (List.range (b + 1)).any fun n => y == numberedName x n

variable {x : String} {b n m : Nat}

theorem isNumbered_iff {y : String} : isNumbered x b y = true ↔ ∃ n ≤ b, y = numberedName x n := by
  simp only [isNumbered, List.any_eq_true, List.mem_range, beq_iff_eq]
  constructor
  · rintro ⟨n, hn, rfl⟩
    exact ⟨n, by omega, rfl⟩
  · rintro ⟨n, hn, rfl⟩
    exact ⟨n, by omega, rfl⟩

theorem isNumbered_name (h : n ≤ b) : isNumbered x b (numberedName x n) = true :=
  isNumbered_iff.mpr ⟨n, h, rfl⟩

/-- Numbers are told apart by their digits. -/
theorem toString_inj : toString n = toString m ↔ n = m := by
  constructor
  · intro h
    have hread := congrArg (fun s : String => Nat.ofDigitChars 10 s.toList 0) h
    simpa [Nat.toString_eq_ofList_toDigits] using hread
  · intro h
    rw [h]

/-- Numbers are told apart by their names. -/
theorem numberedName_inj : numberedName x n = numberedName x m ↔ n = m := by
  have hlonger : ∀ k, x ≠ x ++ "." ++ toString (k + 1) := by
    intro k heq
    have hlen := congrArg (fun s => s.toList.length) heq
    simp at hlen
  constructor
  · intro h
    cases n with
    | zero =>
      cases m with
      | zero => rfl
      | succ m => exact absurd h (hlonger m)
    | succ n =>
      cases m with
      | zero => exact absurd h.symm (hlonger n)
      | succ m =>
        have hlist := congrArg String.toList h
        simp only [numberedName, String.toList_append] at hlist
        exact toString_inj.mp (String.toList_inj.mp (List.append_cancel_left hlist))
  · rintro rfl
    rfl

/-- No digit is a slash or a null character. -/
theorem not_mem_toString {c : Char} (hc : c.isDigit = false) (n : Nat) : c ∉ (toString n).toList := by
  intro hmem
  have hdigits : c ∈ Nat.toDigits 10 n := by
    have hrepr : toString n = String.ofList (Nat.toDigits 10 n) := Nat.repr_eq_ofList_toDigits
    rwa [hrepr, String.toList_ofList] at hmem
  have hdigit := Nat.isDigit_of_mem_toDigits (by omega) (by omega) hdigits
  rw [hc] at hdigit
  cases hdigit

/-- The numbered paths lead to the numbered names. -/
theorem leads_numbered {fs : FileSystem} {path : Path} {d : Location} (h : fs.Leads path d x)
    (n : Nat) : fs.Leads (numbered path n) d (numberedName x n) := by
  cases n with
  | zero => exact h
  | succ n => exact h.suffix (not_mem_toString rfl _) (not_mem_toString rfl _)

/-! ## Histories -/

/-- What is kept under each number. -/
abbrev Shelf := Nat → Option (List UInt8)

/-- The contents under the numbers up to the given one, the greatest number first. -/
def history (v : Shelf) : Nat → List UInt8
  | 0 => (v 0).getD []
  | n + 1 => (v (n + 1)).getD [] ++ history v n

variable {v v' w : Shelf}

theorem history_congr (h : ∀ k ≤ n, w k = v k) : history w n = history v n := by
  induction n with
  | zero => rw [history, history, h 0 (Nat.le_refl 0)]
  | succ n ih =>
    rw [history, history, h (n + 1) (Nat.le_refl _), ih fun k hk => h k (Nat.le_succ_of_le hk)]

/-- **Moved up**: what was under a number is under the next one, where nothing was. -/
structure MovedUp (m : Nat) (v w : Shelf) : Prop where
  free : v (m + 1) = none
  here : w (m + 1) = v m
  gone : w m = none
  other : ∀ k, k ≠ m → k ≠ m + 1 → w k = v k

/-- A move to the next number changes no history that goes beyond it. -/
theorem MovedUp.history (h : MovedUp m v w) (hn : m + 1 ≤ n) : history w n = history v n := by
  induction n with
  | zero => omega
  | succ n ih =>
    by_cases hnm : n = m
    · subst hnm
      rw [Rotation.history, Rotation.history, h.here, h.free]
      cases n with
      | zero => simp [Rotation.history, h.gone]
      | succ n =>
        have hbelow : Rotation.history w n = Rotation.history v n :=
          history_congr fun k hk => h.other k (by omega) (by omega)
        simp [Rotation.history, h.gone, hbelow]
    · rw [Rotation.history, Rotation.history, h.other (n + 1) (by omega) (by omega), ih (by omega)]

/-- **Lost**: at most what was under one number is gone. -/
structure Lost (m : Nat) (v w : Shelf) : Prop where
  here : w m = v m ∨ w m = none
  other : ∀ k, k ≠ m → w k = v k

theorem Lost.refl (m : Nat) (v : Shelf) : Lost m v v := ⟨.inl rfl, fun _ _ => rfl⟩

/-- Where nothing was nothing can get lost. -/
theorem Lost.eq_of_none (h : Lost m v w) (hm : v m = none) : w = v := by
  funext k
  by_cases hk : k = m
  · subst hk
    rcases h.here with heq | hnone
    · exact heq
    · rw [hnone, hm]
  · exact h.other k hk

end Rotation

end Logbook

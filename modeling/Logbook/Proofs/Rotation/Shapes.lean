import Logbook.Rotation.Archive
import Mathlib.Data.List.Basic

/-! # Shapes, read by characters

    Whether a text has a shape is told byte by byte, while the shape and the extension speak
    of characters.  The two readings agree: the bytes of a character are not the start of
    those of another one, and the byte of a digit is no part of a longer character, so the
    walk over the bytes stops between characters only.
-/

namespace Logbook

namespace Text

variable {c d : Char} {s t : List Char} {b : UInt8} {n : Nat}

/-! ## Bytes of characters -/

/-- **No character begins another one.** -/
theorem eq_of_encode_append {x y : List UInt8}
    (h : String.utf8EncodeChar c ++ x = String.utf8EncodeChar d ++ y) : c = d := by
  have hread : ∀ (a : Char) (z : List UInt8),
      ByteArray.utf8DecodeChar? (String.utf8EncodeChar a ++ z).toByteArray 0 = some a := by
    intro a z
    rw [List.toByteArray_append]
    exact ByteArray.utf8DecodeChar?_utf8EncodeChar_append
  have hc := hread c x
  rw [h, hread d y] at hc
  exact (Option.some.inj hc).symm

theorem isDigit_iff : c.isDigit = true ↔ 48 ≤ c.val.toNat ∧ c.val.toNat ≤ 57 := by
  rw [Char.isDigit, Bool.and_eq_true, decide_eq_true_eq, decide_eq_true_eq, ge_iff_le,
    UInt32.le_iff_toNat_le, UInt32.le_iff_toNat_le]
  exact Iff.rfl

theorem isDigitByte_iff : isDigitByte b = true ↔ 48 ≤ b.toNat ∧ b.toNat ≤ 57 := by
  rw [isDigitByte, decide_eq_true_eq, UInt8.le_iff_toNat_le, UInt8.le_iff_toNat_le]
  exact Iff.rfl

/-- A digit is one byte, that of a digit. -/
theorem encode_of_isDigit (h : c.isDigit = true) :
    isDigitByte c.val.toUInt8 = true ∧ String.utf8EncodeChar c = [c.val.toUInt8] := by
  rw [isDigit_iff] at h
  refine ⟨?_, String.utf8EncodeChar_eq_singleton (Char.utf8Size_eq_one_iff.mpr ?_)⟩
  · rw [isDigitByte_iff, UInt32.toNat_toUInt8]
    omega
  · rw [UInt32.le_iff_toNat_le]
    exact Nat.le_trans h.2 (by decide)

/-- A character whose bytes begin with that of a digit is a digit. -/
theorem isDigit_of_encode {x : List UInt8} (h : String.utf8EncodeChar c = b :: x)
    (hb : isDigitByte b = true) : c.isDigit = true := by
  rw [isDigitByte_iff] at hb
  -- The digit that has this byte.
  have hvalid : b.toUInt32.isValidChar := .inl (by rw [UInt8.toNat_toUInt32]; omega)
  have hdigit : (⟨b.toUInt32, hvalid⟩ : Char).isDigit = true := by
    rwa [isDigit_iff, UInt8.toNat_toUInt32]
  have hbytes := (encode_of_isDigit hdigit).2
  rw [UInt8.toUInt8_toUInt32] at hbytes
  rw [eq_of_encode_append (c := c) (d := ⟨b.toUInt32, hvalid⟩) (x := []) (y := x)
    (by rw [List.append_nil, h, hbytes, List.singleton_append])]
  exact hdigit

@[simp] theorem bytes_cons (c : Char) (s : List Char) :
    bytes (c :: s) = String.utf8EncodeChar c ++ bytes s := rfl

@[simp] theorem bytes_append (s t : List Char) : bytes (s ++ t) = bytes s ++ bytes t :=
  List.flatMap_append

/-- Behind the bytes of the first characters the text can be cut. -/
theorem textFrom_bytes (s t : List Char) : textFrom (s ++ t) (bytes s).length = .ok t := by
  induction s with
  | nil => cases t <;> rfl
  | cons c s ih =>
    have hsize := c.utf8Size_pos
    obtain ⟨n, hn⟩ : ∃ n, (bytes (c :: s)).length = n + 1 :=
      ⟨(bytes (c :: s)).length - 1, by simp; omega⟩
    have hrest : n + 1 - c.utf8Size = (bytes s).length := by
      rw [← hn]
      simp
    have hle : ¬ n + 1 < c.utf8Size := by
      rw [← hn]
      simp
    rw [hn, List.cons_append, textFrom, if_neg hle, hrest]
    exact ih

end Text

namespace Rotation

open Text

/-! ## Shapes of characters -/

/-- What follows the given number of digits at the start of a text. -/
def afterDigits : Nat → List Char → Option (List Char)
  | 0, s => some s
  | n + 1, c :: s => if c.isDigit then afterDigits n s else none
  | _ + 1, [] => none

/-- What follows a shape at the start of a text. -/
def afterShape : List ShapePart → List Char → Option (List Char)
  | [], s => some s
  | .digits n :: shape, s => (afterDigits n s).bind (afterShape shape)
  | .literal c :: shape, d :: s => if c = d then afterShape shape s else none
  | .literal _ :: _, [] => none

variable {s : List Char} {n : Nat}

/-- Digits in front of a text are as many bytes; where they are missing, so are the bytes. -/
theorem afterDigits_cases (n : Nat) (s : List Char) :
    (∃ ds rest, s = ds ++ rest ∧ afterDigits n s = some rest ∧ (bytes ds).length = n ∧
        (bytes ds).all isDigitByte = true) ∨
      (afterDigits n s = none ∧
        ((bytes s).length < n ∨ ((bytes s).take n).all isDigitByte = false)) := by
  induction n generalizing s with
  | zero => exact .inl ⟨[], s, rfl, by cases s <;> rfl, rfl, rfl⟩
  | succ n ih =>
    cases s with
    | nil => exact .inr ⟨rfl, .inl (Nat.succ_pos n)⟩
    | cons c s =>
      by_cases hc : c.isDigit = true
      · obtain ⟨hbyte, hencode⟩ := encode_of_isDigit hc
        rw [afterDigits, if_pos hc, bytes_cons, hencode, List.singleton_append]
        rcases ih s with ⟨ds, rest, rfl, hafter, hlen, hall⟩ | ⟨hafter, hbytes⟩
        · refine .inl ⟨c :: ds, rest, rfl, hafter, ?_, ?_⟩
          · rw [bytes_cons, hencode, List.singleton_append, List.length_cons, hlen]
          · rw [bytes_cons, hencode, List.singleton_append, List.all_cons, hbyte, hall]
            rfl
        · refine .inr ⟨hafter, hbytes.imp (fun hlen => ?_) fun hall => ?_⟩
          · rw [List.length_cons]
            exact Nat.succ_lt_succ hlen
          · rw [List.take_succ_cons, List.all_cons, hall, Bool.and_false]
      · rw [afterDigits, if_neg hc]
        obtain ⟨b, x, hencode⟩ := List.exists_cons_of_ne_nil (String.utf8EncodeChar_ne_nil (c := c))
        have hbyte : isDigitByte b = false :=
          Bool.eq_false_iff.mpr fun hb => hc (isDigit_of_encode hencode hb)
        refine .inr ⟨rfl, .inr ?_⟩
        rw [bytes_cons, hencode, List.cons_append, List.take_succ_cons, List.all_cons, hbyte,
          Bool.false_and]

/-- Behind some characters the bytes of digits are looked for in the bytes that follow. -/
theorem behindShape_digits (shape : List ShapePart) (front s : List Char) (n : Nat) :
    behindShape (bytes (front ++ s)) (.digits n :: shape) (bytes front).length =
      if (bytes s).length < n then .ok none
      else if ((bytes s).take n).all isDigitByte then
        behindShape (bytes (front ++ s)) shape ((bytes front).length + n)
      else .ok none := by
  rw [behindShape, bytesWithin, bytes_append, List.length_append]
  by_cases hlen : (bytes s).length < n
  · rw [if_pos (by omega), if_pos hlen]
  · rw [if_neg (by omega), if_neg hlen, if_pos (by omega), List.drop_left, Nat.add_sub_cancel_left]

/-- Behind some characters a literal is looked for in the bytes that follow. -/
theorem behindShape_literal (shape : List ShapePart) (front s : List Char) (c : Char) :
    behindShape (bytes (front ++ s)) (.literal c :: shape) (bytes front).length =
      if (String.utf8EncodeChar c).isPrefixOf (bytes s) then
        behindShape (bytes (front ++ s)) shape
          ((bytes front).length + (String.utf8EncodeChar c).length)
      else .ok none := by
  rw [behindShape, bytesFrom, bytes_append, List.length_append, if_pos (by omega), List.drop_left]

/-- **The walk over the bytes** behind some characters finds what the characters have: no
    shape, or a shape that ends where other characters begin. -/
theorem behindShape_cases (shape : List ShapePart) (front s : List Char) :
    (afterShape shape s = none ∧
        behindShape (bytes (front ++ s)) shape (bytes front).length = .ok none) ∨
      ∃ middle rest, s = middle ++ rest ∧ afterShape shape s = some rest ∧
        behindShape (bytes (front ++ s)) shape (bytes front).length =
          .ok (some (bytes (front ++ middle)).length) := by
  induction shape generalizing front s with
  | nil => exact .inr ⟨[], s, rfl, rfl, by rw [List.append_nil]; rfl⟩
  | cons part shape ih =>
    cases part with
    | digits n =>
      rw [behindShape_digits]
      rcases afterDigits_cases n s with ⟨ds, rest, rfl, hafter, rfl, hall⟩ | ⟨hafter, hbytes⟩
      · rw [afterShape, hafter, Option.bind_some, bytes_append ds, List.length_append,
          if_neg (by omega), List.take_left, if_pos hall, ← List.append_assoc, ← List.length_append,
          ← bytes_append]
        rcases ih (front ++ ds) rest with hnone | ⟨middle, rest, rfl, hrest, hpos⟩
        · exact .inl hnone
        · exact .inr ⟨ds ++ middle, rest, (List.append_assoc ..).symm, hrest, by
            rw [hpos, List.append_assoc]⟩
      · refine .inl ⟨by rw [afterShape, hafter]; rfl, ?_⟩
        rcases hbytes with hlen | hall
        · rw [if_pos hlen]
        · rw [hall, if_neg Bool.false_ne_true, ite_self]
    | literal c =>
      rw [behindShape_literal]
      by_cases hinit : (String.utf8EncodeChar c).isPrefixOf (bytes s) = true
      · obtain ⟨x, hx⟩ := List.isPrefixOf_iff_prefix.mp hinit
        cases s with
        | nil => exact absurd (List.append_eq_nil_iff.mp hx).1 String.utf8EncodeChar_ne_nil
        | cons d s =>
          obtain rfl := eq_of_encode_append hx
          have hone : bytes [c] = String.utf8EncodeChar c := List.append_nil _
          rw [if_pos hinit, afterShape, if_pos rfl, List.append_cons, ← hone,
            ← List.length_append, ← bytes_append]
          rcases ih (front ++ [c]) s with hnone | ⟨middle, rest, rfl, hrest, hpos⟩
          · exact .inl hnone
          · exact .inr ⟨c :: middle, rest, rfl, hrest, by rw [hpos, ← List.append_cons]⟩
      · rw [if_neg hinit]
        refine .inl ⟨?_, rfl⟩
        cases s with
        | nil => rfl
        | cons d s =>
          rw [afterShape, if_neg]
          rintro rfl
          exact hinit (List.isPrefixOf_iff_prefix.mpr (List.prefix_append _ _))

/-- A text has a shape, with or without an extension behind it. -/
def matchesShape (shape : List ShapePart) (s : List Char) : Bool :=
  match afterShape shape s with
  | some rest => isExtension rest
  | none => false

/-- **Bytes and characters agree**: no part of a text is ever asked for that cannot be taken,
    and a text has a shape exactly if its characters have it. -/
theorem hasShape_eq (shape : List ShapePart) (s : List Char) :
    hasShape shape s = .ok (matchesShape shape s) := by
  unfold hasShape matchesShape
  rcases behindShape_cases shape [] s with ⟨hafter, hpos⟩ | ⟨middle, rest, rfl, hafter, hpos⟩
  · have hpos : behindShape (bytes s) shape 0 = .ok none := hpos
    rw [hpos, hafter]
  · have hpos : behindShape (bytes (middle ++ rest)) shape 0 = .ok (some (bytes middle).length) :=
      hpos
    simp only [hpos, hafter, textFrom_bytes]
    rfl

/-- The name of an archive of a file by a schedule. -/
def isArchiveName (p : Period) (base name : String) : Bool :=
  match suffixOf? base name with
  | some suffix => matchesShape p.shape suffix
  | none => false

/-- The names of archives in a directory, in ascending order. -/
def archivesAmong (p : Period) (base : String) (names : List String) : List String :=
  (names.filter (isArchiveName p base)).mergeSort fun a b => decide (a ≤ b)

theorem namesArchive_eq (p : Period) (base name : String) :
    namesArchive p base name = .ok (isArchiveName p base name) := by
  unfold namesArchive isArchiveName
  cases suffixOf? base name with
  | some suffix => exact hasShape_eq p.shape suffix
  | none => rfl

theorem archivesIn_eq (p : Period) (base : String) (names : List String) :
    archivesIn p base names = .ok (names.filter (isArchiveName p base)) := by
  induction names with
  | nil => rfl
  | cons name names ih =>
    rw [archivesIn, namesArchive_eq, ih, List.filter_cons]
    rfl

/-- **What is surplus** in a directory that can be listed, told from the archives in order. -/
theorem surplusArchives_eq (p : Period) (keep : Nat) (path : Path) (fs : FileSystem) :
    surplusArchives p keep path fs =
      match fs.list (archiveDirectory path) with
      | .error e => .error (.system e)
      | .ok names => .ok ((allButLast keep (archivesAmong p (path.fileName?.getD "") names)).map
          fun name => (archiveDirectory path).join ⟨name⟩) := by
  unfold surplusArchives archivesAmong
  dsimp only
  cases fs.list (archiveDirectory path) with
  | error e => rfl
  | ok names => simp only [archivesIn_eq]

end Rotation

end Logbook

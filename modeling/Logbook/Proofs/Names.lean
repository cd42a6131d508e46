import Logbook.Registry
import Mathlib.Data.List.Infix

/-! # Dotted names

    A name is above another one when the other one goes on after it with a dot.
    The names above a given one are its prefixes that end before a dot; they form
    a chain, in which a longer name is below a shorter one.  The list of them
    that a registry walks along holds each once, the longest first.
-/

namespace Logbook

/-- **Above**: the lower name starts with the upper one, which is not empty, and
    a dot. -/
def NameAbove (upper lower : String) : Prop := upper ≠ "" ∧ ∃ rest, lower = upper ++ "." ++ rest

/-! ## The order of names -/

/-- Above, said of the characters. -/
theorem nameAbove_iff {p n : String} : NameAbove p n ↔ p ≠ "" ∧ p.toList ++ ['.'] <+: n.toList := by
  unfold NameAbove
  refine and_congr_right fun _ => ⟨?_, ?_⟩
  · rintro ⟨rest, rfl⟩
    exact ⟨rest.toList, by simp⟩
  · rintro ⟨rest, hrest⟩
    refine ⟨String.ofList rest, String.toList_inj.mp ?_⟩
    simpa using hrest.symm

/-- A name above another one is shorter. -/
theorem NameAbove.length_lt {p n : String} (h : NameAbove p n) : p.length < n.length := by
  have hle := (nameAbove_iff.mp h).2.length_le
  simp only [List.length_append, List.length_cons, List.length_nil, String.length_toList] at hle
  omega

/-- No name is above itself. -/
theorem NameAbove.ne {p n : String} (h : NameAbove p n) : p ≠ n := by
  rintro rfl
  exact lt_irrefl _ h.length_lt

/-- Above is transitive. -/
theorem NameAbove.trans {p q n : String} (h : NameAbove p q) (h' : NameAbove q n) :
    NameAbove p n := by
  obtain ⟨hp, a, rfl⟩ := h
  obtain ⟨-, b, rfl⟩ := h'
  exact ⟨hp, a ++ "." ++ b, by simp [String.append_assoc]⟩

/-- Of two names above a third the shorter one is above the longer one. -/
theorem NameAbove.of_length_lt {p q n : String} (hp : NameAbove p n) (hq : NameAbove q n)
    (hlen : p.length < q.length) : NameAbove p q := by
  have hpn := (nameAbove_iff.mp hp).2
  have hqn : q.toList <+: n.toList :=
    (List.prefix_append _ _).trans (nameAbove_iff.mp hq).2
  refine nameAbove_iff.mpr ⟨hp.1, List.prefix_of_prefix_length_le hpn hqn ?_⟩
  simp only [List.length_append, List.length_cons, List.length_nil, String.length_toList]
  omega

/-- Two names above a third are equal if they are equally long. -/
theorem NameAbove.eq_of_length_eq {p q n : String} (hp : NameAbove p n) (hq : NameAbove q n)
    (hlen : p.length = q.length) : p = q := by
  have hpn : p.toList <+: n.toList := (List.prefix_append _ _).trans (nameAbove_iff.mp hp).2
  have hqn : q.toList <+: n.toList := (List.prefix_append _ _).trans (nameAbove_iff.mp hq).2
  have hlist : p.toList.length = q.toList.length := by
    rw [String.length_toList, String.length_toList, hlen]
  have hpq : p.toList <+: q.toList := List.prefix_of_prefix_length_le hpn hqn hlist.le
  exact String.toList_inj.mp (hpq.eq_of_length hlist)

/-! ## The tests of the registry -/

/-- One text begins another, as lists. -/
theorem startsWith_iff {a b : List Char} : Style.startsWith a b = true ↔ a <+: b := by
  induction a generalizing b with
  | nil => simp [Style.startsWith]
  | cons c cs ih =>
    cases b with
    | nil => simp [Style.startsWith]
    | cons d ds =>
      rw [Style.startsWith, Bool.and_eq_true, decide_eq_true_iff, ih, List.cons_prefix_cons]

/-- The test for a name below another one. -/
theorem isBelow_iff {p n : String} (hp : p ≠ "") : isBelow p n = true ↔ NameAbove p n := by
  rw [isBelow, startsWith_iff, nameAbove_iff]
  exact ⟨fun h => ⟨hp, h⟩, And.right⟩

namespace Registry

/-- The prefixes that end before a dot, with what has been passed in front. -/
theorem mem_dottedPrefixesFrom {passed l : List Char} {p : String} :
    p ∈ dottedPrefixesFrom passed l ↔
      p ≠ "" ∧ ∃ u v, l = u ++ '.' :: v ∧ p = String.ofList (passed ++ u) := by
  induction l generalizing passed with
  | nil => simp [dottedPrefixesFrom]
  | cons c rest ih =>
    -- The head is passed by, except for the prefix that ends right before it.
    have hhead : (∃ u v, c :: rest = u ++ '.' :: v ∧ p = String.ofList (passed ++ u)) ↔
        (∃ u v, rest = u ++ '.' :: v ∧ p = String.ofList (passed ++ [c] ++ u)) ∨
          (c = '.' ∧ p = String.ofList passed) := by
      constructor
      · rintro ⟨u, v, hl, rfl⟩
        cases u with
        | nil =>
          injection hl with hc _
          exact .inr ⟨hc, by simp⟩
        | cons d u =>
          injection hl with hc hrest
          exact .inl ⟨u, v, hrest, by simp [hc]⟩
      · rintro (⟨u, v, rfl, rfl⟩ | ⟨rfl, rfl⟩)
        · exact ⟨c :: u, v, rfl, by simp⟩
        · exact ⟨[], rest, rfl, by simp⟩
    have hpassed : String.ofList passed ≠ "" ↔ passed ≠ [] := by
      rw [ne_eq, ne_eq, ← String.toList_inj]
      simp
    unfold dottedPrefixesFrom
    rw [hhead, and_or_left]
    -- The prefix right before the head counts if the head is a dot and it is not empty.
    split
    · next hdot =>
      obtain ⟨hc, hne⟩ : c = '.' ∧ passed ≠ [] := by simpa using hdot
      rw [List.mem_append, List.mem_singleton, ih]
      refine or_congr_right ⟨?_, fun h => h.2.2⟩
      rintro rfl
      exact ⟨hpassed.mpr hne, hc, rfl⟩
    · next hdot =>
      rw [ih]
      refine (or_iff_left ?_).symm
      rintro ⟨hne, hc, rfl⟩
      exact hdot (by simpa [hc] using hpassed.mp hne)

/-- The walk upwards meets exactly the names above. -/
theorem mem_dottedPrefixes {p n : String} : p ∈ dottedPrefixes n ↔ NameAbove p n := by
  rw [dottedPrefixes, mem_dottedPrefixesFrom, nameAbove_iff]
  refine and_congr_right fun _ => ?_
  constructor
  · rintro ⟨u, v, hn, rfl⟩
    exact ⟨v, by simp [hn]⟩
  · rintro ⟨v, hn⟩
    exact ⟨p.toList, v, by simpa using hn.symm, by simp⟩

/-- The walk upwards meets longer names first. -/
theorem pairwise_dottedPrefixesFrom (passed l : List Char) :
    (dottedPrefixesFrom passed l).Pairwise fun a b => b.length < a.length := by
  induction l generalizing passed with
  | nil => exact List.Pairwise.nil
  | cons c rest ih =>
    unfold dottedPrefixesFrom
    split
    · refine List.pairwise_append.mpr ⟨ih _, List.pairwise_singleton _ _, ?_⟩
      intro a ha b hb
      obtain ⟨-, u, v, -, rfl⟩ := mem_dottedPrefixesFrom.mp ha
      rw [List.mem_singleton.mp hb]
      simp only [String.length_ofList, List.length_append, List.length_cons, List.length_nil]
      omega
    · exact ih _

/-- The walk upwards meets longer names first. -/
theorem pairwise_dottedPrefixes (n : String) :
    (dottedPrefixes n).Pairwise fun a b => b.length < a.length :=
  pairwise_dottedPrefixesFrom [] n.toList

end Registry

end Logbook

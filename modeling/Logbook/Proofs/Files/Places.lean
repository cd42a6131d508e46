import Logbook.LogFile
import Logbook.Proofs.Files.Spelling
import Logbook.Proofs.Files.Way

/-! # Operations on the files of one directory

    A path to a file leads to a directory and a name in it, and so do the path with a
    suffix and the paths of other names below the parent.  For such paths every
    operation is told by what the directory holds under the name, if the path and the
    name are short enough to be asked for.
-/

namespace Logbook.FileSystem

open Path (turnsOf Splits)

variable {fs fs' : FileSystem} {p q : Path} {d : Location} {x y : String} {e : Entry}
  {id : FileId}

/-! ## Paths that lead to a name -/

/-- **Leads**: the way of a path goes to a directory, and its last part is a name that
    is looked up there. -/
structure Leads (fs : FileSystem) (p : Path) (d : Location) (x : String) : Prop where
  nonnull : p.hasNull = false
  directory : fs.isDirectoryAt d = true
  way : ∃ front m, p.Splits front x ∧ fs.Way linkLimit [] (turnsOf front) d m

/-- A way that has an end is one of a path that holds no null character and is neither
    empty nor too long. -/
theorem ending_cases {follow : Bool → Bool} {e : Ending} (h : fs.ending follow p = .ok e) :
    p.hasNull = false ∧ checkLength p = .ok () ∧
      fs.walk follow linkLimit [] p.turns p.endsInSlash = .ok e := by
  simp only [ending, refuseNull, List.any_cons, List.any_nil, Bool.or_false, bind,
    Except.bind] at h
  cases hnull : p.hasNull with
  | true => simp [hnull] at h
  | false =>
    simp only [hnull, Bool.false_eq_true, if_false] at h
    cases hlen : checkLength p with
    | error e => simp [hlen] at h
    | ok u => exact ⟨rfl, rfl, by simpa [hlen] using h⟩

/-- A path leads where its way ends before the last part. -/
theorem leads_of_edge (h : fs.edge p = .ok ⟨d, .name x, false⟩) :
    fs.Leads p d x ∧ checkLength p = .ok () := by
  obtain ⟨hnull, hlen, hwalk⟩ := ending_cases h
  refine ⟨?_, hlen⟩
  rcases List.eq_nil_or_concat p.turns with hnil | ⟨ps, a, hturns⟩
  · rw [hnil, walk_of_last rfl fun _ _ => rfl] at hwalk
    cases hwalk
  · rw [hturns, List.concat_eq_append] at hwalk
    obtain ⟨d', m, he, hd, hway⟩ := way_of_walk rfl hwalk
    simp only [Ending.mk.injEq] at he
    obtain ⟨rfl, rfl, hslash⟩ := he
    rw [List.concat_eq_append] at hturns
    obtain ⟨front, hsplits, hfront⟩ := Path.splits_of_turns hturns hslash.symm
    exact ⟨hnull, hd, front, m, hsplits, hfront ▸ hway⟩

/-- A path to a file that names something leads to it. -/
theorem leads_of_status {front : List Char} (hsplits : p.Splits front x)
    (h : fs.status false p = .ok e) : ∃ d, fs.Leads p d x := by
  cases hend : fs.ending (false || ·) p with
  | error err =>
    simp only [status, find, hend, bind, Except.bind, Except.map] at h
    cases h
  | ok ending =>
    obtain ⟨hnull, -, hwalk⟩ := ending_cases hend
    rw [hsplits.turns, hsplits.endsInSlash] at hwalk
    obtain ⟨d, m, -, hd, hway⟩ := way_of_walk rfl hwalk
    exact ⟨d, hnull, hd, front, m, hsplits, hway⟩

/-- A path leads to the same place in every tree with the directories and links that
    it uses. -/
theorem Leads.mono (h : fs.Leads p d x) (hc : fs'.Covers fs) : fs'.Leads p d x := by
  obtain ⟨front, m, hsplits, hway⟩ := h.way
  exact ⟨h.nonnull, hc.directory h.directory, front, m, hsplits, hway.mono hc⟩

/-- A path with a suffix leads to the name with that suffix. -/
theorem Leads.suffix (h : fs.Leads p d x) {k : String} (hk : '/' ∉ k.toList)
    (hnull : '\x00' ∉ k.toList) : fs.Leads ⟨p.text ++ "." ++ k⟩ d (x ++ "." ++ k) := by
  obtain ⟨front, m, hsplits, hway⟩ := h.way
  refine ⟨?_, h.directory, front, m, hsplits.suffix hk, hway⟩
  have hp := h.nonnull
  simp only [Path.hasNull, String.toList_append] at hp ⊢
  simp_all

/-! ## What is asked for -/

/-- What a directory holds under a name, if the path to it and the name are short
    enough. -/
def shown (fs : FileSystem) (p : Path) (d : Location) (x : String) : Option Entry :=
  if checkLength p = .ok () ∧ isTooLong x = false then fs.entryAt? (d ++ [x]) else none

/-- Something is shown only under a short path and name. -/
theorem shown_eq_some_iff : fs.shown p d x = some e ↔
    (checkLength p = .ok () ∧ isTooLong x = false) ∧ fs.entryAt? (d ++ [x]) = some e := by
  unfold shown
  split <;> simp_all

/-- The way of a path that is too long is not followed. -/
theorem ending_of_checkLength {follow : Bool → Bool} {err : SystemError} (h : fs.Leads p d x)
    (hlen : checkLength p = .error err) : fs.ending follow p = .error err := by
  simp [ending, refuseNull, h.nonnull, hlen, bind, Except.bind]

/-- The end of the way of a path that is short enough. -/
theorem Leads.ending {follow : Bool → Bool} (h : fs.Leads p d x) (hlen : checkLength p = .ok ())
    (hlink : follow false = false ∨ ∀ t, fs.shown p d x ≠ some (.link t)) :
    fs.ending follow p = .ok ⟨d, .name x, false⟩ := by
  obtain ⟨front, m, hsplits, hway⟩ := h.way
  have hwalk : fs.walk follow linkLimit [] p.turns p.endsInSlash = .ok ⟨d, .name x, false⟩ := by
    rw [hsplits.turns, hsplits.endsInSlash]
    refine hway.walk_last h.directory fun t ht => ?_
    rcases hlink with hfollow | hnot
    · exact hfollow
    · refine absurd ?_ (hnot t)
      simp only [look] at ht
      split at ht
      · cases ht
      · next hs =>
        rw [shown_eq_some_iff]
        exact ⟨⟨hlen, by simpa using hs⟩, by simpa [Ending.location] using ht⟩
  simp [FileSystem.ending, refuseNull, h.nonnull, hlen, bind, Except.bind, hwalk]

theorem Leads.edge (h : fs.Leads p d x) (hlen : checkLength p = .ok ()) :
    fs.edge p = .ok ⟨d, .name x, false⟩ := h.ending hlen (.inl rfl)

/-- Where a way that has an end, ends. -/
theorem Leads.edge_cases {e : Ending} (h : fs.Leads p d x) (he : fs.edge p = .ok e) :
    checkLength p = .ok () ∧ e = ⟨d, .name x, false⟩ := by
  cases hlen : checkLength p with
  | error err => 
    rw [FileSystem.edge, ending_of_checkLength h hlen] at he
    cases he
  | ok u =>
    rw [h.edge hlen] at he
    exact ⟨rfl, by simpa using he.symm⟩

/-- What is looked up at the end. -/
theorem look_name {slash : Bool} (fs : FileSystem) (d : Location) (x : String) :
    fs.look ⟨d, .name x, slash⟩ =
      if isTooLong x then .error .nameTooLong else .ok (fs.entryAt? (d ++ [x])) := rfl

/-- A path names what is shown, unless that is a link to be followed. -/
theorem Leads.status_of_some (h : fs.Leads p d x) (hs : fs.shown p d x = some e) {follow : Bool}
    (hfollow : follow = false ∨ ∀ t, e ≠ .link t) : fs.status follow p = .ok e := by
  obtain ⟨⟨hlen, hx⟩, hentry⟩ := shown_eq_some_iff.mp hs
  have hend : fs.ending (follow || ·) p = .ok ⟨d, .name x, false⟩ := by
    refine h.ending hlen (hfollow.imp (fun heq => by simp [heq]) fun hnot t ht => hnot t ?_)
    rw [hs] at ht
    exact Option.some.inj ht
  simp only [status, find, hend, bind, Except.bind, look_name, hx, hentry]
  cases e <;> rfl

/-- A path names nothing if nothing is shown. -/
theorem Leads.status_of_none (h : fs.Leads p d x) (hs : fs.shown p d x = none) (follow : Bool) :
    ∃ err, fs.status follow p = .error err := by
  cases hlen : checkLength p with
  | error err =>
    exact ⟨err, by simp [status, find, ending_of_checkLength h hlen, bind, Except.bind, Except.map]⟩
  | ok u =>
    have hend : fs.ending (follow || ·) p = .ok ⟨d, .name x, false⟩ :=
      h.ending hlen (.inr fun t ht => by simp [hs] at ht)
    cases hx : isTooLong x with
    | true =>
      exact ⟨.nameTooLong, by simp [status, find, hend, look_name, hx, bind, Except.bind, Except.map]⟩
    | false =>
      have hentry : fs.entryAt? (d ++ [x]) = none := by simpa [shown, hlen, hx] using hs
      exact ⟨.notFound, by
        simp [status, find, hend, look_name, hx, hentry, bind, Except.bind, Except.map]⟩

/-- Without following a link a path names what is shown. -/
theorem Leads.status_eq_ok_iff (h : fs.Leads p d x) :
    fs.status false p = .ok e ↔ fs.shown p d x = some e := by
  cases hs : fs.shown p d x with
  | none =>
    obtain ⟨err, herr⟩ := h.status_of_none hs false
    simp [herr]
  | some e' => simp [h.status_of_some hs (.inl rfl)]

/-- What exists is shown. -/
theorem Leads.shown_of_exists (h : fs.Leads p d x) (hex : fs.exists? p = true) :
    ∃ e, fs.shown p d x = some e := by
  cases hs : fs.shown p d x with
  | some e => exact ⟨e, rfl⟩
  | none =>
    obtain ⟨err, herr⟩ := h.status_of_none hs true
    simp [exists?, herr, Except.isOk, Except.toBool] at hex

/-- What is shown exists, unless it is a link. -/
theorem Leads.exists_of_shown (h : fs.Leads p d x) (hs : fs.shown p d x = some e)
    (he : ∀ t, e ≠ .link t) : fs.exists? p = true := by
  simp [exists?, h.status_of_some hs (.inr he), Except.isOk, Except.toBool]

/-- A file, or nothing, is nothing special. -/
theorem Leads.isSpecial_eq_false (h : fs.Leads p d x)
    (hfile : ∀ e, fs.entryAt? (d ++ [x]) = some e → ∃ id, e = .file id) : fs.isSpecial p = false := by
  cases hs : fs.shown p d x with
  | none =>
    obtain ⟨err, herr⟩ := h.status_of_none hs false
    simp [isSpecial, herr]
  | some e =>
    obtain ⟨id, rfl⟩ := hfile e (shown_eq_some_iff.mp hs).2
    simp [isSpecial, h.status_of_some hs (.inl rfl)]

/-! ## Changes -/

/-- A computation that comes to an end has come to one after its first step. -/
theorem bind_eq_ok {ε α β : Type} {r : Except ε α} {f : α → Except ε β} {b : β} :
    (r >>= f) = .ok b ↔ ∃ a, r = .ok a ∧ f a = .ok b := by
  cases r <;> simp [bind, Except.bind]

/-- **A directory is made** where nothing has its name yet. -/
theorem makeDirectory_cases (h : fs.makeDirectory p = .ok fs') :
    ∃ a, fs.edge p = .ok a ∧ a.isName = true ∧ fs.look a = .ok none ∧
      fs' = (fs.allot { modified := fs.now }).1.put a.location (.directory fs.data.size) := by
  simp only [makeDirectory, bind_eq_ok] at h
  obtain ⟨a, hedge, h⟩ := h
  split at h
  · cases h
  · next hname =>
    simp only [bind_eq_ok] at h
    obtain ⟨found, hlook, h⟩ := h
    cases found with
    | some _ => cases h
    | none => exact ⟨a, hedge, by simpa using hname, hlook, (Except.ok.inj h).symm⟩

/-- **What is removed** is there under a name, without a slash after it, and no directory. -/
theorem removeFile_cases (h : fs.removeFile p = .ok fs') :
    ∃ a e, fs.edge p = .ok a ∧ a.isName = true ∧ a.slash = false ∧ fs.look a = .ok (some e) ∧
      (∀ id, e ≠ .directory id) ∧ fs' = fs.take a.location := by
  simp only [FileSystem.removeFile, bind_eq_ok] at h
  obtain ⟨a, hedge, h⟩ := h
  split at h
  · cases h
  · next hname =>
    simp only [bind_eq_ok] at h
    obtain ⟨found, hlook, h⟩ := h
    split at h
    · cases h
    · cases h
    · next e hdir =>
      split at h
      · cases h
      · next hslash =>
        exact ⟨a, e, hedge, by simpa using hname, by simpa using hslash, hlook, hdir,
          (Except.ok.inj h).symm⟩

/-- **What is renamed** is there under a name and may come under the other one. -/
theorem rename_cases (h : fs.rename p q = .ok fs') :
    ∃ old new e found, fs.edge p = .ok old ∧ fs.edge q = .ok new ∧ old.isName = true ∧
      new.isName = true ∧ fs.look old = .ok (some e) ∧ fs.look new = .ok found ∧
      fs.checkMove old.location new.location (old.slash || new.slash) = .ok () ∧
      fs' = if old.location = new.location then fs else fs.move old.location new.location := by
  simp only [FileSystem.rename, bind_eq_ok] at h
  obtain ⟨-, -, old, hold, new, hnew, h⟩ := h
  split at h
  · cases h
  · next hnames =>
    obtain ⟨holdName, hnewName⟩ : old.isName = true ∧ new.isName = true := by simpa using hnames
    simp only [bind_eq_ok] at h
    obtain ⟨there, hlook, h⟩ := h
    cases there with
    | none => cases h
    | some e =>
      simp only [bind_eq_ok] at h
      obtain ⟨found, hfound, _, hmove, h⟩ := h
      exact ⟨old, new, e, found, hold, hnew, holdName, hnewName, hlook, hfound, hmove,
        (Except.ok.inj h).symm⟩

/-- **A link is made** where nothing has its name yet. -/
theorem makeLink_cases (h : fs.makeLink p q = .ok fs') :
    ∃ a, fs.edge p = .ok a ∧ a.isName = true ∧ fs.look a = .ok none ∧
      fs' = fs.put a.location (.link q) := by
  simp only [makeLink, bind_eq_ok] at h
  obtain ⟨-, -, -, -, a, hedge, h⟩ := h
  split at h
  · cases h
  · next hname =>
    simp only [bind_eq_ok] at h
    obtain ⟨found, hlook, h⟩ := h
    cases found with
    | some _ => cases h
    | none =>
      dsimp only at h
      split at h
      · cases h
      · exact ⟨a, hedge, by simpa using hname, hlook, (Except.ok.inj h).symm⟩

/-- What is looked up with success under a name that is asked for. -/
theorem Leads.look_ok {found : Option Entry} (hlen : checkLength p = .ok ())
    (hok : fs.look ⟨d, .name x, false⟩ = .ok found) :
    isTooLong x = false ∧ found = fs.shown p d x := by
  rw [look_name] at hok
  split at hok
  · cases hok
  · next hx =>
    have hshort : isTooLong x = false := by simpa using hx
    exact ⟨hshort, by simpa [shown, hlen, hshort] using hok.symm⟩

/-- What is removed is shown, and no directory. -/
theorem Leads.removeFile (h : fs.Leads p d x) (hok : fs.removeFile p = .ok fs') :
    ∃ e, fs.shown p d x = some e ∧ (∀ id, e ≠ .directory id) ∧ fs' = fs.take (d ++ [x]) := by
  obtain ⟨a, e, hedge, -, -, hlook, hdir, hremoved⟩ := removeFile_cases hok
  obtain ⟨hlen, rfl⟩ := h.edge_cases hedge
  obtain ⟨-, hfound⟩ := Leads.look_ok hlen hlook
  exact ⟨e, hfound.symm, hdir, hremoved⟩

/-- What is renamed is shown; it comes in place of what had the name, which is no
    directory unless it is one itself. -/
theorem Leads.rename (h : fs.Leads p d x) (h' : fs.Leads q d y) (hxy : x ≠ y)
    (hok : fs.rename p q = .ok fs') :
    ∃ e, fs.shown p d x = some e ∧ (checkLength q = .ok () ∧ isTooLong y = false) ∧
      ((∀ id, e ≠ .directory id) → fs.isDirectoryAt (d ++ [y]) = false) ∧
      fs' = fs.move (d ++ [x]) (d ++ [y]) := by
  have hne : d ++ [x] ≠ d ++ [y] := by simpa using hxy
  obtain ⟨old, new, e, other, hold, hnew, -, -, hlook, hother, hmove, hmoved⟩ := rename_cases hok
  obtain ⟨hlen, rfl⟩ := h.edge_cases hold
  obtain ⟨hlen', rfl⟩ := h'.edge_cases hnew
  obtain ⟨-, hfound⟩ := Leads.look_ok hlen hlook
  obtain ⟨hy, -⟩ := Leads.look_ok hlen' hother
  refine ⟨e, hfound.symm, ⟨hlen', hy⟩, fun hdir => ?_, hmoved.trans (if_neg hne)⟩
  -- What is no directory may not come in place of one.
  have hentry := (shown_eq_some_iff.mp hfound.symm).2
  by_contra hcon
  rw [Bool.not_eq_false] at hcon
  simp only [Ending.location] at hmove
  unfold checkMove at hmove
  rw [hentry] at hmove
  cases e with
  | directory id => exact hdir id rfl
  | file id => simp [hne, hcon] at hmove; split at hmove <;> cases hmove
  | link t => simp [hne, hcon] at hmove; split at hmove <;> cases hmove

/-- Where the last part of a path is a name. -/
theorem Ending.location_of_isName {a : Ending} (h : a.isName = true) :
    ∃ s, a.location = a.directory ++ [s] ∧ a.part = .name s := by
  unfold Ending.isName at h
  split at h
  · next s hs => exact ⟨s, by simp [Ending.location, hs], hs⟩
  · cases h

/-- A name that is looked for in vain is free. -/
theorem entryAt?_of_look_none {a : Ending} {s : String} (hpart : a.part = .name s)
    (hlook : fs.look a = .ok none) : fs.entryAt? a.location = none := by
  simp only [look, hpart] at hlook
  split at hlook
  · cases hlook
  · exact Except.ok.inj hlook

/-- **Open**: the way of the path ends before a name, without a slash after it, and the
    name is that of the file or has been given to a new one. -/
theorem openFile_cases {mode : FileMode} (h : fs.openFile p mode = .ok (fs', id)) :
    ∃ a s, fs.ending (!·) p = .ok a ∧ a.slash = false ∧ a.part = .name s ∧
      ((fs.look a = .ok (some (.file id)) ∧
          (mode = .append → fs' = fs) ∧ (mode = .truncate → fs' = fs.setContent id [])) ∨
        fs.look a = .ok none ∧ id = fs.data.size ∧
          fs' = (fs.allot { modified := fs.now }).1.put a.location (.file fs.data.size)) := by
  simp only [openFile, bind_eq_ok] at h
  obtain ⟨a, hend, h⟩ := h
  split at h
  · cases h
  · next hplain =>
    obtain ⟨hslash, hname⟩ : a.slash = false ∧ a.isName = true := by simpa using hplain
    simp only [bind_eq_ok] at h
    obtain ⟨found, hlook, h⟩ := h
    obtain ⟨s, -, hpart⟩ := Ending.location_of_isName hname
    refine ⟨a, s, hend, hslash, hpart, ?_⟩
    cases found with
    | some entry =>
      cases entry with
      | file i =>
        left
        cases mode with
        | append =>
          obtain ⟨rfl, rfl⟩ := Prod.mk.inj (Except.ok.inj h)
          exact ⟨hlook, fun _ => rfl, nofun⟩
        | truncate =>
          obtain ⟨rfl, rfl⟩ := Prod.mk.inj (Except.ok.inj h)
          exact ⟨hlook, nofun, fun _ => rfl⟩
      | directory i => cases h
      | link t => cases h
    | none =>
      right
      obtain ⟨rfl, rfl⟩ := Prod.mk.inj (Except.ok.inj h)
      exact ⟨hlook, rfl, rfl⟩

/-- A file is opened to write behind its end, and made first if there is none. -/
theorem Leads.openFile (h : fs.Leads p d x)
    (hfile : ∀ e, fs.entryAt? (d ++ [x]) = some e → ∃ id, e = .file id)
    (hok : fs.openFile p .append = .ok (fs', id)) :
    (fs.shown p d x = some (.file id) ∧ fs' = fs) ∨
      (checkLength p = .ok () ∧ isTooLong x = false) ∧ fs.entryAt? (d ++ [x]) = none ∧
        id = fs.data.size ∧
        fs' = (fs.allot { modified := fs.now }).1.put (d ++ [x]) (.file fs.data.size) := by
  obtain ⟨a, s, hend, -, -, hcases⟩ := openFile_cases hok
  cases hlen : checkLength p with
  | error err => simp [ending_of_checkLength h hlen] at hend
  | ok u =>
    have hend' : fs.ending (!·) p = .ok ⟨d, .name x, false⟩ := by
      refine h.ending hlen (.inr fun t ht => ?_)
      obtain ⟨id, hid⟩ := hfile _ (shown_eq_some_iff.mp ht).2
      cases hid
    rw [hend'] at hend
    obtain rfl := Except.ok.inj hend
    rcases hcases with ⟨hlook, hsame, -⟩ | ⟨hlook, rfl, rfl⟩
    · exact .inl ⟨(Leads.look_ok hlen hlook).2.symm, hsame rfl⟩
    · refine .inr ⟨⟨rfl, (Leads.look_ok hlen hlook).1⟩, ?_, rfl, rfl⟩
      exact entryAt?_of_look_none rfl hlook

/-! ## The directory -/

/-- What stays where it is leads nowhere else. -/
theorem Way.of_here {n m : Nat} {l l' : Location} {ps : List Path.Part} (h : fs.Way n l ps l' m)
    (hps : ∀ a ∈ ps, a = .here) : l' = l ∧ m = n := by
  induction h with
  | nil => exact ⟨rfl, rfl⟩
  | turn _ _ _ ih =>
    obtain rfl := hps _ List.mem_cons_self
    exact ih fun a ha => hps a (List.mem_cons_of_mem _ ha)
  | name => cases hps _ List.mem_cons_self
  | link => cases hps _ List.mem_cons_self

/-- A path from the working directory that has a way to a directory names it. -/
theorem find_directory {m : Nat} (hnull : p.hasNull = false) (hlen : checkLength p = .ok ())
    (hway : fs.Way linkLimit [] p.turns d m) (hd : fs.isDirectoryAt d = true) :
    ∃ id, fs.find true p = .ok (d, .directory id) := by
  obtain ⟨e, hwalk, ⟨id, hlook, hloc⟩ | ⟨hc, -⟩⟩ :=
    hway.walk_directory rfl hd p.endsInSlash true
  · have hend : fs.ending (fun _ => true) p = .ok e := by
      simpa [ending, refuseNull, hnull, hlen, bind, Except.bind] using hwalk
    exact ⟨id, by simp [find, hend, hlook, bind, Except.bind, hloc]⟩
  · cases hc

/-- No directory is made where a path has a way to one. -/
theorem makeDirectories_of_way {m : Nat} (hnull : p.hasNull = false)
    (hlen : checkLength p = .ok ()) (hway : fs.Way linkLimit [] p.turns d m)
    (hd : fs.isDirectoryAt d = true) : fs.makeDirectories p = (.ok (), fs) := by
  obtain ⟨id, hfind⟩ := find_directory hnull hlen hway hd
  have hdir : fs.isDirectory p = true := by simp [isDirectory, status, hfind, Except.map]
  obtain ⟨e, hwalk, hfound⟩ := hway.walk_directory rfl hd p.endsInSlash false
  have hedge : fs.edge p = .ok e := by
    simpa [edge, ending, refuseNull, hnull, hlen, bind, Except.bind] using hwalk
  have hmake : fs.makeDirectory p = .error .alreadyExists := by
    simp only [makeDirectory, hedge, bind, Except.bind]
    split
    · rfl
    · rcases hfound with ⟨id, hlook, -⟩ | ⟨-, t, hlook⟩ <;> simp [hlook]
  rw [makeDirectories, makeDirectoriesUpTo, hmake]
  simp [hdir]

/-- The beginning of a path holds no null character if the path holds none. -/
theorem hasNull_of_start {dir : Path} (hinit : dir.text.toList <+: p.text.toList)
    (hnull : p.hasNull = false) : dir.hasNull = false := by
  simp only [Path.hasNull, List.contains_eq_mem, decide_eq_false_iff_not] at hnull ⊢
  exact fun hmem => hnull (hinit.subset hmem)

/-- The beginning of a path is not too long if the path is not. -/
theorem checkLength_of_start {dir : Path} (hinit : dir.text.toList <+: p.text.toList)
    (hne : dir.text.toList ≠ []) (hlen : checkLength p = .ok ()) : checkLength dir = .ok () := by
  have hbytes := Text.byteLength_le_of_prefix hinit
  have hempty : dir.text.isEmpty = false := by
    rw [Bool.eq_false_iff]
    intro heq
    exact hne (by simpa using heq)
  unfold checkLength at hlen ⊢
  rw [hempty]
  split at hlen
  · cases hlen
  · split at hlen
    · cases hlen
    · rw [if_neg (by simp), if_neg (by omega)]

/-- The directory of a path is there, as the parent of the path and as the place of
    its archives. -/
theorem Leads.parent (h : fs.Leads p d x) (hlen : checkLength p = .ok ()) :
    p.parent? = some ⟨""⟩ ∧ d = [] ∨ ∃ dir m, p.parent? = some dir ∧ dir.text.toList ≠ [] ∧
      dir.hasNull = false ∧ checkLength dir = .ok () ∧ fs.Way linkLimit [] dir.turns d m := by
  obtain ⟨front, m, hsplits, hway⟩ := h.way
  rcases hsplits.parent? with ⟨rfl, hparent⟩ | ⟨dir, idle, hparent, hne, hinit, hturns, hidle⟩
  · refine .inl ⟨hparent, ?_⟩
    have hnil : turnsOf [] = [] := rfl
    rw [hnil] at hway
    cases hway
    rfl
  · rw [hturns] at hway
    obtain ⟨l, k, hfirst, hrest⟩ := hway.split
    obtain ⟨rfl, rfl⟩ := hrest.of_here hidle
    have hinit' : dir.text.toList <+: p.text.toList :=
      hinit.trans (hsplits.text ▸ List.prefix_append _ _)
    exact .inr ⟨dir, m, hparent, hne, hasNull_of_start hinit' h.nonnull,
      checkLength_of_start hinit' hne hlen, hfirst⟩

end Logbook.FileSystem

import Logbook.Proofs.Files.Opened
import Logbook.Proofs.Rotation.Emit

/-! # A watched file and its path

    Others may move the live file away, remove it, or put another file in its place
    between any two lines.  The policy compares the identity that it has noted with that
    of what the path names, and opens the file anew when they differ.

    A line that opens the file itself, the first one of a file that is opened late or the
    one after a close, notes nothing.  The next look notes what the path names by then,
    or, if something else is noted from before, compares with that.  If the path leads to
    another file by then, and to one that is taken for the noted one, the sink is misled:
    the line goes to the file that is open, which the path does not name.  In all other
    cases the line goes to the file that the path names.
-/

namespace Logbook

open FileSystem Rotation

namespace FileSystem

variable {fs fs' fs'' : FileSystem} {id : FileId} {bytes more : List UInt8} {p : Path}

/-- **Gains**: bytes have come behind the content of one file, and no other content has
    changed. -/
structure Gains (id : FileId) (bytes : List UInt8) (fs fs' : FileSystem) : Prop where
  here : fs'.contentOf id = fs.contentOf id ++ bytes
  other : ∀ i, i ≠ id → fs'.contentOf i = fs.contentOf i

/-- What is gained after a step that changes no content. -/
theorem Gains.after (h : Gains id bytes fs' fs'')
    (hsame : ∀ i, fs'.contentOf i = fs.contentOf i) : Gains id bytes fs fs'' := by
  refine ⟨?_, ?_⟩
  · rw [h.here, hsame]
  · intro i hi
    rw [h.other i hi, hsame]

/-- **Follows**: bytes have come behind the file that a path names now. -/
def Follows (p : Path) (bytes : List UInt8) (fs fs' : FileSystem) : Prop :=
  ∃ id, fs'.status true p = .ok (.file id) ∧ Gains id bytes fs fs'

/-- A path has the same identity in a tree with the same entries. -/
theorem identity?_congr (h : fs'.entries = fs.entries) (p : Path) :
    fs'.identity? p = fs.identity? p := by
  simp only [identity?, status_congr h]

end FileSystem

/-! ## The look at the path -/

namespace Rotation.WatchedFile

variable {p : WatchedFile} {f : LogFile} {fs : FileSystem}

/-- If nothing is noted, or what the path leads to, the file is not opened anew. -/
theorem isDue_of_same (p : WatchedFile) (hopen : f.isOpen = true)
    (hsame : p.opened? = none ∨ p.opened? = fs.identity? f.path) :
    p.isDue f fs = (false, { opened? := fs.identity? f.path }) := by
  obtain ⟨noted⟩ := p
  unfold isDue
  rw [hopen]
  cases noted with
  | none => rfl
  | some id =>
    have hid : some id = fs.identity? f.path := hsame.resolve_left nofun
    rw [← hid]
    exact congrArg (·, _) (decide_eq_false (not_not_intro rfl))

/-- If another file is noted than the path leads to, the file is to be opened anew. -/
theorem isDue_of_other (p : WatchedFile) (hopen : f.isOpen = true)
    (hother : ¬ (p.opened? = none ∨ p.opened? = fs.identity? f.path)) :
    p.isDue f fs = (true, p) := by
  obtain ⟨noted⟩ := p
  unfold isDue
  rw [hopen]
  cases noted with
  | none => exact absurd (.inl rfl) hother
  | some id =>
    have hne : fs.identity? f.path ≠ some id := fun heq => hother (.inr heq.symm)
    exact congrArg (·, _) (decide_eq_true hne)

end Rotation.WatchedFile

/-! ## Lines -/

/-- A line goes to the file that is open.  If none was open, that is the one which the
    path names when the line has been written; otherwise the path names what it did. -/
theorem LogFile.writeLine_names {f : LogFile} {fs fs' : FileSystem} {text terminator : String}
    {r : Except LogError LogFile} (happends : f.Appends) (hapart : fs.ToldApart)
    (hheld : ∀ h, f.handle? = some h → fs.Held h.id)
    (hwrite : f.writeLine text terminator fs = (r, fs')) :
    fs.Outlives fs' ∧ (∀ e, r = .error e → f.isOpen = false) ∧ ∀ f', r = .ok f' →
      ∃ h, f'.handle? = some h ∧ fs'.Held h.id ∧
        Gains h.id (lineBytes text terminator) fs fs' ∧
        (f.handle? = some h ∧ fs'.identity? f.path = fs.identity? f.path ∨
          f.isOpen = false ∧ fs'.status true f.path = .ok (.file h.id)) := by
  rcases writeLine_cases hwrite with ⟨e, hreopen, rfl⟩ |
    ⟨f₁, fs₁, h, handle', hreopen, hhandle, hsend, rfl⟩
  · obtain ⟨houtlives, -⟩ := reopen_names happends hreopen
    refine ⟨houtlives, fun _ _ => ?_, nofun⟩
    rcases reopen_cases hreopen with ⟨-, heq, -⟩ | ⟨hclosed, -⟩
    · cases heq
    · exact hclosed
  · obtain ⟨houtlives, hsame, hopened⟩ := reopen_names happends hreopen
    obtain ⟨-, hkept⟩ := reopen_keeps happends hreopen
    obtain ⟨hstays, hnames⟩ := hopened f₁ rfl
    -- The file that is open now is held, and was open or is what the path names.
    obtain ⟨hheld₁, hwhich⟩ : fs₁.Held h.id ∧ (f.handle? = some h ∧ fs₁ = fs ∨
        f.isOpen = false ∧ fs₁.status true f.path = .ok (.file h.id)) := by
      cases hopen : f.isOpen with
      | true =>
        obtain ⟨rfl, rfl⟩ := hstays hopen
        exact ⟨hheld h hhandle, .inl ⟨hhandle, rfl⟩⟩
      | false =>
        obtain ⟨h', hh, hstatus⟩ := hnames hopen
        obtain rfl := Option.some.inj (hhandle.symm.trans hh)
        obtain ⟨l, hl⟩ := entryAt?_of_status hstatus
        exact ⟨(houtlives.apart hapart).held hl, .inr ⟨rfl, hstatus⟩⟩
    rw [send_append ((hkept f₁ rfl).1.handle h hhandle)] at hsend
    obtain ⟨rfl, rfl⟩ := Prod.mk.inj hsend
    have hentries := entries_append fs₁ h.id (lineBytes text terminator)
    have hwritten : fs₁.Outlives (fs₁.append h.id (lineBytes text terminator)) :=
      .of_data hentries (size_append _ _ _)
    refine ⟨houtlives.trans hwritten, nofun, ?_⟩
    intro f' heq
    obtain rfl := Except.ok.inj heq
    refine ⟨h, rfl, hwritten.held hheld₁, ?_, ?_⟩
    · have hgains : Gains h.id (lineBytes text terminator) fs₁
          (fs₁.append h.id (lineBytes text terminator)) := by
        refine ⟨?_, ?_⟩
        · rw [contentOf_append hheld₁.known, if_pos rfl]
        · intro i hi
          rw [contentOf_append hheld₁.known, if_neg hi]
      exact hgains.after hsame
    · rcases hwhich with ⟨hh, rfl⟩ | ⟨hclosed, hstatus⟩
      · exact .inl ⟨hh, identity?_congr hentries _⟩
      · exact .inr ⟨hclosed, (status_congr hentries true _).trans hstatus⟩

namespace FileSink

variable {s s' s₁ : FileSink} {w w' w₁ : World} {text : String} {r : Except LogError Unit}

/-! ## What the policy knows -/

/-- The identity that is noted for a watched path. -/
def noted? (s : FileSink) : Option FileId :=
  match s.policy with
  | .watched p => p.opened?
  | _ => none

/-- **Watching**: the path of a file that is appended to is watched, and the file is held
    as long as it is open. -/
structure Watching (s : FileSink) (w : World) : Prop where
  policy : ∃ p, s.policy = .watched p
  appends : s.file.Appends
  apart : w.files.ToldApart
  held : ∀ h, s.file.handle? = some h → w.files.Held h.id

/-- **Misled**: the path does not lead to the file that is open, and the policy does not
    see that, because nothing is noted or because what the path leads to is noted. -/
def Misled (s : FileSink) (w : World) : Prop :=
  ∃ h, s.file.handle? = some h ∧ w.files.identity? s.file.path ≠ some h.id ∧
    (s.noted? = none ∨ s.noted? = w.files.identity? s.file.path)

/-- **Assured**: the file that is open is noted, or the path leads to it. -/
def Assured (s : FileSink) (w : World) : Prop :=
  ∀ h, s.file.handle? = some h →
    s.noted? = some h.id ∨ w.files.identity? s.file.path = some h.id

/-- A sink that is assured is not misled. -/
theorem Assured.not_misled (h : s.Assured w) : ¬ s.Misled w := by
  rintro ⟨handle, hhandle, hpath, hnoted⟩
  rcases h handle hhandle with hknown | hthere
  · rcases hnoted with hnone | hsame
    · rw [hknown] at hnone
      cases hnone
    · rw [hknown] at hsame
      exact hpath hsame.symm
  · exact hpath hthere

/-- A closed sink is assured. -/
theorem assured_of_closed (h : s.file.isOpen = false) (w : World) : s.Assured w := by
  intro handle hhandle
  rw [LogFile.isOpen, hhandle] at h
  cases h

/-! ## What comes before a line -/

/-- **Looked up**: how a sink stands when the policy has looked at the path.  The sink is
    closed; or the file that was open has stayed open, since nothing else was noted than the
    path leads to; or the file that the path names has been opened.  It has been misled in
    the second case only. -/
inductive LookedUp (s : FileSink) (w : World) (s₁ : FileSink) (w₁ : World) : Prop where
  | shut (hclosed : s₁.file.isOpen = false) (hsees : ¬ s.Misled w)
  | stayed {handle : Handle} (hfile : s₁.file = s.file)
      (hhandle : s.file.handle? = some handle) (hworld : w₁ = w)
      (hnoted : s.noted? = none ∨ s.noted? = w.files.identity? s.file.path)
  | anew {handle : Handle} (hhandle : s₁.file.handle? = some handle)
      (hleads : w₁.files.identity? s.file.path = some handle.id) (hsees : ¬ s.Misled w)

/-- If the sink has not been misled, the path leads to the file that is open now. -/
theorem LookedUp.leads (h : LookedUp s w s₁ w₁) (hsees : ¬ s.Misled w) {handle : Handle}
    (hopen : s₁.file.handle? = some handle) :
    w₁.files.identity? s.file.path = some handle.id := by
  cases h with
  | shut hclosed =>
    rw [LogFile.isOpen, hopen] at hclosed
    cases hclosed
  | stayed hfile hhandle hworld hnoted =>
    subst hworld
    rw [hfile] at hopen
    by_contra hnot
    exact hsees ⟨handle, hopen, hnot, hnoted⟩
  | anew hhandle hleads =>
    obtain rfl := Option.some.inj (hhandle.symm.trans hopen)
    exact hleads

/-- If it has been, the file that was open has stayed open, and the path does not lead to
    it. -/
theorem LookedUp.astray (h : LookedUp s w s₁ w₁) (hmisled : s.Misled w) :
    ∃ handle, s.file.handle? = some handle ∧ s₁.file.handle? = some handle ∧
      w₁.files.identity? s.file.path ≠ some handle.id := by
  cases h with
  | shut _ hsees => exact absurd hmisled hsees
  | stayed hfile hhandle hworld =>
    subst hworld
    obtain ⟨other, hother, hnot, -⟩ := hmisled
    exact ⟨other, hother, by rw [hfile, hother], hnot⟩
  | anew _ _ hsees => exact absurd hmisled hsees

/-- A sink that has not been misled opens the file that the path names, or is closed. -/
theorem rollOver_watched {p : WatchedFile} (h : s.Watching w) (hsees : ¬ s.Misled w)
    (hroll : ({ s with policy := .watched p } : FileSink).rollOver w = (r, s₁, w₁)) :
    s₁.Watching w₁ ∧ s₁.terminator = s.terminator ∧ s₁.file.path = s.file.path ∧
      (∀ i, w₁.files.contentOf i = w.files.contentOf i) ∧ s.LookedUp w s₁ w₁ := by
  unfold FileSink.rollOver Policy.rollOver WatchedFile.rollOver at hroll
  dsimp only at hroll
  cases hreopen : s.file.close.reopen w.files with
  | mk r₁ fs₁ =>
    obtain ⟨houtlives, hsame, hopened⟩ := LogFile.reopen_names h.appends.close hreopen
    obtain ⟨-, hkept⟩ := LogFile.reopen_keeps h.appends.close hreopen
    rw [hreopen] at hroll
    cases r₁ with
    -- The file could not be opened, and the sink is closed.
    | error e =>
      obtain ⟨rfl, hrest⟩ := Prod.mk.inj hroll
      obtain ⟨rfl, rfl⟩ := Prod.mk.inj hrest
      refine ⟨⟨⟨p, rfl⟩, h.appends.close, houtlives.apart h.apart, ?_⟩, rfl, rfl, hsame,
        .shut rfl hsees⟩
      intro handle hnone
      cases hnone
    | ok f₁ =>
      obtain ⟨rfl, hrest⟩ := Prod.mk.inj hroll
      obtain ⟨rfl, rfl⟩ := Prod.mk.inj hrest
      obtain ⟨happends₁, hsettings⟩ := hkept f₁ rfl
      -- The file that is opened is the one that the path names, and it is noted.
      obtain ⟨handle₁, hhandle₁, hstatus⟩ := (hopened f₁ rfl).2 rfl
      obtain ⟨l, hl⟩ := entryAt?_of_status hstatus
      refine ⟨⟨⟨_, rfl⟩, happends₁, houtlives.apart h.apart, ?_⟩, rfl, hsettings.path, hsame,
        .anew hhandle₁ (identity?_of_status hstatus) hsees⟩
      intro handle' hhandle'
      obtain rfl := Option.some.inj (hhandle₁.symm.trans hhandle')
      exact (houtlives.apart h.apart).held hl

/-- **Before a line** the policy looks at the path, and no content of a file changes. -/
theorem prepare_watched (h : s.Watching w) (hprepare : s.prepare text w = (r, s₁, w₁)) :
    s₁.Watching w₁ ∧ s₁.terminator = s.terminator ∧ s₁.file.path = s.file.path ∧
      (∀ i, w₁.files.contentOf i = w.files.contentOf i) ∧ s.LookedUp w s₁ w₁ := by
  obtain ⟨p, hpolicy⟩ := h.policy
  have hnoted : s.noted? = p.opened? := by rw [noted?, hpolicy]
  unfold prepare isDue Policy.isDue at hprepare
  simp only [hpolicy] at hprepare
  cases hhandle : s.file.handle? with
  | none =>
    -- A closed file is not looked at.
    have hclosed : s.file.isOpen = false := by rw [LogFile.isOpen, hhandle]; rfl
    rw [WatchedFile.isDue, hclosed] at hprepare
    obtain ⟨rfl, hrest⟩ := Prod.mk.inj hprepare
    obtain ⟨rfl, rfl⟩ := Prod.mk.inj hrest
    refine ⟨⟨⟨p, rfl⟩, h.appends, h.apart, h.held⟩, rfl, rfl, fun _ => rfl, .shut hclosed ?_⟩
    exact (assured_of_closed hclosed w).not_misled
  | some handle =>
    have hopen : s.file.isOpen = true := by rw [LogFile.isOpen, hhandle]; rfl
    by_cases hstay : p.opened? = none ∨ p.opened? = w.files.identity? s.file.path
    · -- Nothing is noted, or what the path leads to: the open file stays open.
      rw [p.isDue_of_same hopen hstay] at hprepare
      obtain ⟨rfl, hrest⟩ := Prod.mk.inj hprepare
      obtain ⟨rfl, rfl⟩ := Prod.mk.inj hrest
      refine ⟨⟨⟨_, rfl⟩, h.appends, h.apart, h.held⟩, rfl, rfl, fun _ => rfl, ?_⟩
      exact .stayed rfl hhandle rfl (hnoted ▸ hstay)
    · -- Another file is noted than the path leads to.
      rw [p.isDue_of_other hopen hstay] at hprepare
      refine rollOver_watched h ?_ hprepare
      rintro ⟨-, -, -, hmisled⟩
      exact hstay (hnoted ▸ hmisled)

/-! ## One line -/

/-- **One line**: written by a sink that is not misled it goes to the file that the path
    names, and the sink is assured after it.  Written by one that is misled it goes to
    the file that is open, which the path does not name. -/
theorem emit_watched (h : s.Watching w) (hemit : s.emit text w = (r, s', w')) :
    s'.Watching w' ∧ s'.file.path = s.file.path ∧ s'.terminator = s.terminator ∧
      (¬ s.Misled w → s'.Assured w' ∧ (r = .ok () →
        Follows s.file.path (LogFile.lineBytes text s.terminator) w.files w'.files)) ∧
      (s.Misled w → ∃ handle, s.file.handle? = some handle ∧
        w'.files.status true s.file.path ≠ .ok (.file handle.id) ∧
        Gains handle.id (LogFile.lineBytes text s.terminator) w.files w'.files) := by
  obtain ⟨r₁, s₁, w₁, w₂, hprepare, -, -, hwrite⟩ := emit_cases hemit
  obtain ⟨hwatching₁, hterminator, hpath, hsame, hlooked⟩ := prepare_watched h hprepare
  rcases hwrite with ⟨e, fs, hwrite, rfl, rfl, rfl⟩ | ⟨f, fs, hwrite, rfl, rfl, rfl⟩
  · -- The line could not be written, since the file could not be opened.
    obtain ⟨houtlives, hclosed, -⟩ :=
      LogFile.writeLine_names hwatching₁.appends hwatching₁.apart hwatching₁.held hwrite
    have hclosed₁ := hclosed e rfl
    refine ⟨⟨hwatching₁.policy, hwatching₁.appends, houtlives.apart hwatching₁.apart, ?_⟩, hpath,
      hterminator, fun _ => ⟨assured_of_closed hclosed₁ _, nofun⟩, ?_⟩
    · intro handle hhandle
      exact houtlives.held (hwatching₁.held handle hhandle)
    · intro hmisled
      obtain ⟨handle, -, hopen, -⟩ := hlooked.astray hmisled
      rw [LogFile.isOpen, hopen] at hclosed₁
      cases hclosed₁
  · obtain ⟨houtlives, -, hwritten⟩ :=
      LogFile.writeLine_names hwatching₁.appends hwatching₁.apart hwatching₁.held hwrite
    obtain ⟨-, hkept⟩ := LogFile.writeLine_keeps hwatching₁.appends hwrite
    obtain ⟨happends, hsettings⟩ := hkept f rfl
    obtain ⟨handle, hhandle, hheld, hgains, hwhich⟩ := hwritten f rfl
    have hpath' : f.path = s.file.path := hsettings.path.trans hpath
    rw [hterminator] at hgains
    rw [hpath] at hwhich
    have hgains' := hgains.after hsame
    refine ⟨⟨hwatching₁.policy, happends, houtlives.apart hwatching₁.apart, ?_⟩, hpath',
      hterminator, ?_, ?_⟩
    · intro handle' hhandle'
      obtain rfl := Option.some.inj (hhandle.symm.trans hhandle')
      exact hheld
    · intro hsees
      -- Open already, the file was the one that the path names; opened now, it is so too.
      have hthere : fs.identity? s.file.path = some handle.id := by
        rcases hwhich with ⟨hopen, hidentity⟩ | ⟨-, hstatus⟩
        · exact hidentity.trans (hlooked.leads hsees hopen)
        · exact identity?_of_status hstatus
      refine ⟨?_, fun _ => ⟨handle.id, status_of_identity hheld hthere, hgains'⟩⟩
      intro handle' hhandle'
      obtain rfl := Option.some.inj (hhandle.symm.trans hhandle')
      rw [hpath']
      exact .inr hthere
    · intro hmisled
      -- The sink saw no reason to open anew, and its file is one that the path does not name.
      obtain ⟨handle', hhandle', hopen', hnot⟩ := hlooked.astray hmisled
      rcases hwhich with ⟨hopen, hidentity⟩ | ⟨hclosed, -⟩
      · obtain rfl := Option.some.inj (hopen.symm.trans hopen')
        refine ⟨handle, hhandle', ?_, hgains'⟩
        intro hstatus
        exact hnot (hidentity.symm.trans (identity?_of_status hstatus))
      · rw [LogFile.isOpen, hopen'] at hclosed
        cases hclosed

/-! ## Runs -/

/-- **Watched**: a sink with a watched path and the world around it, after it has been
    made and after any lines, flushes, closes and disturbances in any order.

    A run is calm if others leave alone what the path names for as long as a file is open
    that is not noted: from the line that opened it to the next one. -/
inductive Watched (o : FileSinkOptions) (calm : Bool) : FileSink → World → Prop where
  | build {s : FileSink} {w w' : World} (hapart : w.files.ToldApart)
      (h : FileSink.build o w = (.ok s, w')) : Watched o calm s w'
  | emit {s s' : FileSink} {w w' : World} {text : String} {r : Except LogError Unit}
      (hbefore : Watched o calm s w) (h : s.emit text w = (r, s', w')) : Watched o calm s' w'
  | flush {s : FileSink} {w : World} {r : Except LogError Unit}
      (hbefore : Watched o calm s w) (h : (Sink.file s).flush w = r) : Watched o calm s w
  | close {s s' : FileSink} {w : World} {r : Except LogError Unit}
      (hbefore : Watched o calm s w) (h : (Sink.file s).close w = (r, .file s')) :
      Watched o calm s' w
  | disturbed {s : FileSink} {w w' : World} (hbefore : Watched o calm s w)
      (h : w.files.Disturbance w'.files)
      (hcalm : calm = true → ∀ handle, s.file.handle? = some handle →
        s.noted? = some handle.id ∨
          w'.files.identity? s.file.path = w.files.identity? s.file.path) :
      Watched o calm s w'

/-- A sink that is made watches its path, and the file that it opens is noted. -/
theorem watching_build {o : FileSinkOptions} {p : WatchedFile}
    (hpolicy : o.policy? = some (.watched p)) (hapart : w.files.ToldApart)
    (h : FileSink.build o w = (.ok s, w')) :
    s.Watching w' ∧ (∀ handle, s.file.handle? = some handle → s.noted? = some handle.id) ∧
      s.file.path = o.path ∧ s.terminator = o.terminator := by
  obtain ⟨f, hrenewed, hfile, hattached, hterminator⟩ := build_ok hpolicy h
  have hfresh : o.liveFile.Appends := ⟨rfl, nofun⟩
  obtain ⟨-, happends, hsettings⟩ := hrenewed.keeps hfresh
  have hpath : s.file.path = o.path := by
    rw [hfile]
    exact hsettings.path
  have happends' : s.file.Appends := by
    rw [hfile]
    exact ⟨happends.mode, happends.handle⟩
  rcases hrenewed with ⟨-, rfl, hsame⟩ | ⟨-, hreopen⟩
  · -- A sink that waits for a line has opened nothing yet.
    have hclosed : ∀ handle, s.file.handle? ≠ some handle := by
      rw [hfile]
      exact nofun
    refine ⟨⟨⟨_, hattached⟩, happends', hsame ▸ hapart, ?_⟩, ?_, hpath, hterminator⟩
    · exact fun handle hhandle => absurd hhandle (hclosed handle)
    · exact fun handle hhandle => absurd hhandle (hclosed handle)
  · obtain ⟨houtlives, -, hopened⟩ := LogFile.reopen_names hfresh hreopen
    obtain ⟨handle, hhandle, hstatus⟩ := (hopened f rfl).2 rfl
    have hhandle' : s.file.handle? = some handle := by
      rw [hfile]
      exact hhandle
    -- The note is taken right after the file was opened.
    have hidentity : w'.files.identity? s.file.path = some handle.id := by
      rw [hpath]
      exact identity?_of_status hstatus
    have hopen : s.file.isOpen = true := by
      rw [LogFile.isOpen, hhandle']
      rfl
    have hattach : p.attach s.file w'.files = { opened? := some handle.id } := by
      rw [WatchedFile.attach, if_pos hopen, hidentity]
    have hpolicy' : s.policy = .watched { opened? := some handle.id } :=
      hattached.trans (congrArg Policy.watched hattach)
    obtain ⟨l, hl⟩ := entryAt?_of_status hstatus
    refine ⟨⟨⟨_, hpolicy'⟩, happends', houtlives.apart hapart, ?_⟩, ?_, hpath, hterminator⟩
    · intro other hother
      obtain rfl := Option.some.inj (hhandle'.symm.trans hother)
      exact (houtlives.apart hapart).held hl
    · intro other hother
      obtain rfl := Option.some.inj (hhandle'.symm.trans hother)
      rw [noted?, hpolicy']

/-- Along a run the sink watches its path; along a calm one it is assured. -/
theorem Watched.watching {o : FileSinkOptions} {p : WatchedFile} {calm : Bool}
    (hpolicy : o.policy? = some (.watched p)) (h : Watched o calm s w) :
    s.Watching w ∧ s.file.path = o.path ∧ s.terminator = o.terminator ∧
      (calm = true → s.Assured w) := by
  induction h with
  | build hapart h =>
    obtain ⟨hwatching, hnoted, hpath, hterminator⟩ := watching_build hpolicy hapart h
    exact ⟨hwatching, hpath, hterminator, fun _ handle hhandle => .inl (hnoted handle hhandle)⟩
  | emit _ h ih =>
    obtain ⟨hwatching, hpath, hterminator, hassured⟩ := ih
    obtain ⟨hwatching', hpath', hterminator', hsees, -⟩ := emit_watched hwatching h
    refine ⟨hwatching', hpath'.trans hpath, hterminator'.trans hterminator, ?_⟩
    intro hcalm
    exact (hsees (hassured hcalm).not_misled).1
  | flush _ _ ih => exact ih
  -- A closed sink opens what the path names before it writes again.
  | @close s s' w r _ h ih =>
    obtain ⟨hwatching, hpath, hterminator, -⟩ := ih
    obtain rfl := Sink.file.inj (Prod.mk.inj h).2
    refine ⟨⟨hwatching.policy, hwatching.appends.close, hwatching.apart, nofun⟩, hpath,
      hterminator, fun _ => assured_of_closed rfl w⟩
  | disturbed _ h hquiet ih =>
    obtain ⟨hwatching, hpath, hterminator, hassured⟩ := ih
    refine ⟨⟨hwatching.policy, hwatching.appends, h.outlives.apart hwatching.apart, ?_⟩, hpath,
      hterminator, ?_⟩
    · intro handle hhandle
      exact h.outlives.held (hwatching.held handle hhandle)
    · -- A calm event moves the file that is open only if that will be seen.
      intro hcalm handle hhandle
      rcases hquiet hcalm handle hhandle with hnoted | hsame
      · exact .inl hnoted
      · exact (hassured hcalm handle hhandle).imp_right hsame.trans

/-! ## The file that the path names -/

/-- **A watched file follows its path**, opened at once or late, whatever others rename,
    remove and write between the lines: every line that a sink which is not misled writes
    goes behind the file that the path names right after it, and no other file changes.
    In a calm run no sink is misled.  A sink that is misled writes to the file that is
    open, which the path does not name. -/
theorem Watched.line_follows_path {o : FileSinkOptions} {p : WatchedFile} {calm : Bool}
    (hpolicy : o.policy? = some (.watched p)) (h : Watched o calm s w)
    (hemit : s.emit text w = (.ok (), s', w')) :
    (¬ s.Misled w →
        Follows o.path (LogFile.lineBytes text o.terminator) w.files w'.files) ∧
      (calm = true → ¬ s.Misled w) ∧
      (s.Misled w → ∃ handle, s.file.handle? = some handle ∧
        w'.files.status true o.path ≠ .ok (.file handle.id) ∧
        Gains handle.id (LogFile.lineBytes text o.terminator) w.files w'.files) := by
  obtain ⟨hwatching, hpath, hterminator, hassured⟩ := h.watching hpolicy
  obtain ⟨-, -, -, hsees, hmisled⟩ := emit_watched hwatching hemit
  rw [hpath, hterminator] at hsees hmisled
  exact ⟨fun hnot => (hsees hnot).2 rfl, fun hcalm => (hassured hcalm).not_misled, hmisled⟩

/-- A watched sink for a file in the working directory. -/
def watchedOptions (delay : Bool) : FileSinkOptions :=
  { path := ⟨"app.log"⟩, delay, policy? := some (.watched {}) }

/-- A file that was opened at once is moved away before the first line, and the line goes
    to a new one. -/
theorem line_follows_path_after_rename :
    ∃ s w fs s' w', FileSink.build (watchedOptions false) {} = (.ok s, w) ∧
      w.files.rename ⟨"app.log"⟩ ⟨"app.log.1"⟩ = .ok fs ∧
      s.emit "two" { w with files := fs } = (.ok (), s', w') ∧
      Follows ⟨"app.log"⟩ (LogFile.lineBytes "two" "\n") fs w'.files := by
  have hrun : ((FileSink.build (watchedOptions false) {}).1.toOption.any fun s =>
      ((FileSink.build (watchedOptions false) {}).2.files.rename ⟨"app.log"⟩
        ⟨"app.log.1"⟩).toOption.any fun fs =>
      (s.emit "two" { (FileSink.build (watchedOptions false) {}).2 with files := fs }).1.isOk) =
        true := by decide +kernel
  rcases hbuild : FileSink.build (watchedOptions false) {} with ⟨_ | s, w⟩ <;> rw [hbuild] at hrun
  · cases hrun
  dsimp only at hrun
  rcases hrename : w.files.rename ⟨"app.log"⟩ ⟨"app.log.1"⟩ with _ | fs <;> rw [hrename] at hrun
  · cases hrun
  rcases hemit : s.emit "two" { w with files := fs } with ⟨_ | _, s', w'⟩
  · simp [Except.toOption, hemit, Except.isOk, Except.toBool] at hrun
  -- What has been opened is noted, so that others may do what they like.
  obtain ⟨-, hnoted, -, -⟩ := watching_build (p := {}) rfl toldApart_empty hbuild
  have hbefore : Watched (watchedOptions false) true s { w with files := fs } :=
    .disturbed (.build toldApart_empty hbuild) (.rename hrename)
      fun _ handle hhandle => .inl (hnoted handle hhandle)
  obtain ⟨hfollows, hcalm, -⟩ := hbefore.line_follows_path (p := {}) rfl hemit
  exact ⟨s, w, fs, s', w', rfl, hrename, hemit, hfollows (hcalm rfl)⟩

/-- **A line to a file that was moved away**: the first line opens the file, which nobody
    notes.  When it has been moved the next look notes that the path names nothing, and
    the second line goes to the file that was moved. -/
theorem line_to_moved_file :
    ∃ s w s₁ w₁ fs s₂ w₂, FileSink.build (watchedOptions true) {} = (.ok s, w) ∧
      s.emit "one" w = (.ok (), s₁, w₁) ∧
      w₁.files.rename ⟨"app.log"⟩ ⟨"app.log.1"⟩ = .ok fs ∧
      s₁.emit "two" { w₁ with files := fs } = (.ok (), s₂, w₂) ∧
      w₂.files.status true ⟨"app.log"⟩ = .error .notFound ∧
      w₂.files.readPath ⟨"app.log.1"⟩ =
        .ok (LogFile.lineBytes "one" "\n" ++ LogFile.lineBytes "two" "\n") := by
  have hrun : ((FileSink.build (watchedOptions true) {}).1.toOption.any fun s =>
      let one := s.emit "one" (FileSink.build (watchedOptions true) {}).2
      one.1.isOk && (one.2.2.files.rename ⟨"app.log"⟩ ⟨"app.log.1"⟩).toOption.any fun fs =>
        let two := one.2.1.emit "two" { one.2.2 with files := fs }
        two.1.isOk && decide (two.2.2.files.status true ⟨"app.log"⟩ = .error .notFound ∧
          two.2.2.files.readPath ⟨"app.log.1"⟩ =
            .ok (LogFile.lineBytes "one" "\n" ++ LogFile.lineBytes "two" "\n"))) = true := by
    decide +kernel
  rcases hbuild : FileSink.build (watchedOptions true) {} with ⟨_ | s, w⟩
  · simp [hbuild, Except.toOption] at hrun
  rw [hbuild] at hrun
  simp only [Except.toOption, Option.any_some] at hrun
  rcases hone : s.emit "one" w with ⟨_ | _, s₁, w₁⟩
  · simp [hone, Except.isOk, Except.toBool] at hrun
  rw [hone] at hrun
  rcases hrename : w₁.files.rename ⟨"app.log"⟩ ⟨"app.log.1"⟩ with _ | fs
  · simp [hrename] at hrun
  rw [hrename] at hrun
  simp only [Option.any_some] at hrun
  rcases htwo : s₁.emit "two" { w₁ with files := fs } with ⟨_ | _, s₂, w₂⟩
  · simp [htwo, Except.isOk, Except.toBool] at hrun
  simp only [htwo, Except.isOk, Except.toBool, Bool.true_and, decide_eq_true_eq] at hrun
  exact ⟨s, w, s₁, w₁, fs, s₂, w₂, rfl, hone, hrename, htwo, hrun.1, hrun.2⟩

end FileSink

end Logbook

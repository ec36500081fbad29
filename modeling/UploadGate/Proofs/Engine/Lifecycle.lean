/-
  UploadGate/Proofs/Engine/Lifecycle.lean
  =======================================
  **What is published about one upload is the story of one life.**

  An upload is created, grows, is complete once it has reached its size, and may be
  ended.  `Life.word` is the list of events of such a life.  The events of an id are
  the word of a life or none at all, in every workload whose ids are distinct.  The
  invariant behind it (`Tells`) says more of the uploads in memory: as long as the
  broadcaster is open, their life has not been ended and the last offset of its word
  is theirs.  That is what a step of an upload needs to add its events to the word.
  Of an upload that is neither in memory nor about to be, nothing more is told.
-/
import UploadGate.Proofs.Engine.Consistency

namespace UploadGate

/-! ### Lives -/

/-- How far an upload grew, and whether it was ended. -/
structure Life where
  info : UploadInfo
  /-- The offsets it grew to, one after the other. -/
  offsets : List Nat := []
  isEnded : Bool := false

namespace Life

def reached (l : Life) : Nat := l.offsets.getLastD 0

def last (l : Life) : UploadInfo := l.info.withOffset l.reached

/-- The events of a life: all have the size and the metadata of the upload, and the
    completion comes right after the event at which its size was reached. -/
def word (l : Life) : List Event :=
  (l.info.withOffset 0).event .created
    :: l.offsets.map (fun offset => (l.info.withOffset offset).event .progress)
    ++ (if l.reached = l.info.size then [l.last.event .completed] else [])
    ++ (if l.isEnded then [l.last.event .terminated] else [])

/-- An upload only grows, and not beyond its size. -/
structure IsOrderly (l : Life) : Prop where
  increasing : (0 :: l.offsets).Pairwise (· < ·)
  bounded : ∀ offset ∈ l.offsets, offset ≤ l.info.size

variable {l : Life} {info : UploadInfo} {offset : Nat}

theorem IsOrderly.le_reached (h : l.IsOrderly) : ∀ offset ∈ 0 :: l.offsets, offset ≤ l.reached := by
  obtain ⟨info, offsets, isEnded⟩ := l
  have hincreasing := h.increasing
  intro offset hoffset
  rcases List.eq_nil_or_concat' offsets with rfl | ⟨before, final, rfl⟩
  · exact Nat.le_of_eq (List.mem_singleton.mp hoffset)
  · have hreached : reached ⟨info, before ++ [final], isEnded⟩ = final := by
      rw [reached, List.getLastD_concat]
    rw [hreached]
    rw [← List.cons_append, List.pairwise_append] at hincreasing
    rw [← List.cons_append] at hoffset
    rcases List.mem_append.mp hoffset with hbefore | hfinal
    · exact Nat.le_of_lt (hincreasing.2.2 offset hbefore final (List.mem_singleton.mpr rfl))
    · exact Nat.le_of_eq (List.mem_singleton.mp hfinal)

theorem isOrderly_create (info : UploadInfo) : IsOrderly { info } :=
  ⟨List.pairwise_singleton _ _, List.forall_mem_nil _⟩

theorem IsOrderly.grow (h : l.IsOrderly) (hgrows : l.reached < offset) (hbounded : offset ≤ l.info.size) :
    IsOrderly { l with offsets := l.offsets ++ [offset] } := by
  constructor
  · rw [← List.cons_append, List.pairwise_append]
    refine ⟨h.increasing, List.pairwise_singleton _ _, ?_⟩
    intro before hbefore final hfinal
    rw [List.mem_singleton.mp hfinal]
    exact Nat.lt_of_le_of_lt (h.le_reached before hbefore) hgrows
  · intro other hother
    rcases List.mem_append.mp hother with hother | hother
    · exact h.bounded other hother
    · rw [List.mem_singleton.mp hother]
      exact hbounded

/-! ### Words -/

theorem announced_withOffset {kind : EventKind} (h : offset ≤ info.size) :
    Engine.announced false kind (info.withOffset offset)
      = (info.withOffset offset).event kind
        :: if offset = info.size then [(info.withOffset offset).event .completed] else [] := by
  unfold Engine.announced UploadInfo.isComplete UploadInfo.withOffset
  by_cases hdone : offset = info.size
  · simp [hdone]
  · have hlack : ¬ info.size ≤ offset := by omega
    simp [hdone, hlack]

/-- The word begins with what a creation announces. -/
theorem word_create (hoffset : info.offset = 0) :
    word { info } = Engine.announced false .created info := by
  have hsame : info = info.withOffset 0 := by
    rw [UploadInfo.withOffset, ← hoffset]
  conv => rhs; rw [hsame, announced_withOffset (Nat.zero_le _)]
  simp [word, reached, last]

/-- The word goes on with what a write announces. -/
theorem word_grow (hended : l.isEnded = false) (hlacks : l.reached < l.info.size)
    (hbounded : offset ≤ l.info.size) :
    word { l with offsets := l.offsets ++ [offset] }
      = l.word ++ Engine.announced false .progress (l.info.withOffset offset) := by
  obtain ⟨info, offsets, isEnded⟩ := l
  obtain rfl : isEnded = false := hended
  have hreached : reached { info, offsets := offsets ++ [offset] } = offset := by
    rw [reached, List.getLastD_concat]
  have hlack : reached { info, offsets } ≠ info.size := Nat.ne_of_lt hlacks
  rw [announced_withOffset hbounded]
  simp [word, hreached, last, hlack]

/-- The word ends with what the end of an upload announces. -/
theorem word_end (hended : l.isEnded = false) :
    word { l with isEnded := true } = l.word ++ [l.last.event .terminated] := by
  simp [word, hended, last, reached]

end Life

/-- Events tell the life of an upload up to now, which goes on. -/
def UploadInfo.IsToldBy (info : UploadInfo) (events : List Event) : Prop :=
  ∃ life : Life, life.info = info ∧ life.isEnded = false ∧ life.reached = info.offset
    ∧ life.IsOrderly ∧ events = life.word

namespace Workload

/-! ### The events of an id -/

def history (w : Workload) (id : Text) : List Event := w.published.filter (·.uploadId = id)

/-- An upload has the size, within the limit, and the metadata that its creation declared. -/
def Declared (config : Config) (actions : List Action) (info : UploadInfo) : Prop :=
  (info.size : Int) ≤ config.maximumUploadSize
    ∧ ∃ header? createdAt, .enroll info.id header? info.size createdAt ∈ actions
      ∧ Metadata.decode header? = .ok info.metadata

/-- Events that are the story of one upload: none, or the word of a life as it was
    declared, that was ended only where this was asked for. -/
def IsStory (config : Config) (actions : List Action) (id : Text) (events : List Event) : Prop :=
  events = [] ∨ ∃ life : Life, life.info.id = id ∧ Declared config actions life.info ∧ life.IsOrderly
    ∧ (life.isEnded = true → .terminate id ∈ actions) ∧ events = life.word

variable {config : Config} {w w' : Workload} {actions : List Action} {a : Action} {info : UploadInfo}
  {buffer : Bytes} {kind : EventKind} {id : Text} {events : List Event}

theorem Declared.concat (h : Declared config actions info) (a : Action) :
    Declared config (actions ++ [a]) info := by
  obtain ⟨hsize, header?, createdAt, hmem, hmetadata⟩ := h
  exact ⟨hsize, header?, createdAt, List.mem_append_left _ hmem, hmetadata⟩

theorem IsStory.concat (h : IsStory config actions id events) (a : Action) :
    IsStory config (actions ++ [a]) id events := by
  rcases h with hnone | ⟨life, hid, hdeclared, horderly, hended, hword⟩
  · exact Or.inl hnone
  · refine Or.inr ⟨life, hid, hdeclared.concat a, horderly, ?_, hword⟩
    intro h
    exact List.mem_append_left _ (hended h)

theorem uploadId_of_mem_announced {isClosed : Bool} {ev : Event}
    (h : ev ∈ Engine.announced isClosed kind info) : ev.uploadId = info.id := by
  rcases Engine.eq_event_of_mem_announced h with rfl | rfl
  · rfl
  · rfl

/-- Events of one upload are added to its history, and to no other. -/
theorem history_append {owner : Text} (hpublished : w'.published = w.published ++ events)
    (howner : ∀ ev ∈ events, ev.uploadId = owner) (id : Text) :
    w'.history id = w.history id ++ if owner = id then events else [] := by
  rw [history, history, hpublished, List.filter_append]
  congr 1
  split
  · rename_i heq
    rw [List.filter_eq_self]
    intro ev hev
    simpa [heq] using howner ev hev
  · rename_i hne
    rw [List.filter_eq_nil_iff]
    intro ev hev
    simpa [howner ev hev] using hne

theorem history_of_announced {isClosed : Bool}
    (hpublished : w'.published = w.published ++ Engine.announced isClosed kind info) (id : Text) :
    w'.history id = w.history id ++ if info.id = id then Engine.announced isClosed kind info else [] :=
  history_append hpublished (fun _ hev => uploadId_of_mem_announced hev) id

theorem history_of_terminated {isClosed : Bool}
    (hpublished : w'.published = w.published ++ if isClosed then [] else [info.event .terminated])
    (id : Text) :
    w'.history id = w.history id
      ++ if info.id = id then (if isClosed then [] else [info.event .terminated]) else [] := by
  apply history_append hpublished
  intro ev hev
  rw [Engine.eq_event_of_mem hev]
  rfl

/-! ### The invariant -/

structure Tells (config : Config) (actions : List Action) (w : Workload) : Prop where
  sound : w.IsSound config
  suspended : ∀ info ∈ w.suspended, Declared config actions info
  known : ∀ id info, w.engine.uploads.get? id = some info → Declared config actions info
  /-- Nothing is told about an upload before its creation goes on. -/
  silent : ∀ id, (id ∈ w.drawn → ∃ info ∈ w.suspended, info.id = id) → w.history id = []
  /-- The story of an upload in memory is all told so far, and open. -/
  alive : w.engine.broadcaster.isClosed = false →
    ∀ id info, w.engine.uploads.get? id = some info → info.IsToldBy (w.history id)
  story : ∀ id, IsStory config actions id (w.history id)

theorem tells_start (config : Config) (store : Store) (broadcaster : Broadcaster)
    (telemetry : Telemetry) : Tells config [] (start store broadcaster telemetry) := by
  refine ⟨isSound_start config store broadcaster telemetry, List.forall_mem_nil _, ?_, fun _ _ => rfl, ?_,
    fun _ => Or.inl rfl⟩
  · intro id info h
    cases h
  · intro _ id info h
    cases h

namespace Tells

theorem isOpen_of_follows (hfollows : w.Follows w') (h : w'.engine.broadcaster.isClosed = false) :
    w.engine.broadcaster.isClosed = false := by
  cases hclosed : w.engine.broadcaster.isClosed with
  | false => rfl
  | true =>
    rw [hfollows.isClosed hclosed] at h
    cases h

/-- Nothing is published, and nothing is put into memory. -/
theorem of_quiet (h : Tells config actions w) (hfollows : w.Follows w') (hsound : w'.IsSound config)
    (hmemory : w'.engine.memory = w.engine.memory) (hpublished : w'.published = w.published)
    (hsuspended : ∀ info ∈ w'.suspended, Declared config (actions ++ [a]) info)
    (hsilent : ∀ id, (id ∈ w'.drawn → ∃ info ∈ w'.suspended, info.id = id) → w.history id = []) :
    Tells config (actions ++ [a]) w' := by
  have huploads : w'.engine.uploads = w.engine.uploads := congrArg Memory.uploads hmemory
  have hhistory : ∀ id, w'.history id = w.history id := by
    intro id
    rw [history, hpublished, history]
  refine ⟨hsound, hsuspended, ?_, ?_, ?_, ?_⟩
  · intro id info hinfo
    exact (h.known id info (huploads ▸ hinfo)).concat a
  · intro id hid
    rw [hhistory]
    exact hsilent id hid
  · intro hopen id info hinfo
    rw [hhistory]
    exact h.alive (isOpen_of_follows hfollows hopen) id info (huploads ▸ hinfo)
  · intro id
    rw [hhistory]
    exact (h.story id).concat a

/-- What holds where only one upload is touched follows from what holds of that one. -/
theorem of_owner (h : Tells config actions w) (hfollows : w.Follows w') (hsound : w'.IsSound config)
    {owner : Text} (hdrawn : owner ∈ w.drawn)
    (hother : ∀ id, owner ≠ id → w'.history id = w.history id)
    (hkept : ∀ id info, owner ≠ id → w'.engine.uploads.get? id = some info →
      w.engine.uploads.get? id = some info)
    (hsuspended : ∀ info ∈ w'.suspended, info ∈ w.suspended ∧ owner ≠ info.id)
    (hdeclared : ∀ info, w'.engine.uploads.get? owner = some info →
      Declared config (actions ++ [a]) info)
    (halive : w'.engine.broadcaster.isClosed = false →
      ∀ info, w'.engine.uploads.get? owner = some info → info.IsToldBy (w'.history owner))
    (hstory : IsStory config (actions ++ [a]) owner (w'.history owner)) :
    Tells config (actions ++ [a]) w' := by
  refine ⟨hsound, ?_, ?_, ?_, ?_, ?_⟩
  · intro info hmem
    exact (h.suspended info (hsuspended info hmem).1).concat a
  · intro id info hget
    by_cases heq : owner = id
    · exact hdeclared info (heq ▸ hget)
    · exact (h.known id info (hkept id info heq hget)).concat a
  · intro id hsilent
    have hne : owner ≠ id := by
      rintro rfl
      obtain ⟨info, hmem, hid⟩ := hsilent (hfollows.drawn.subset hdrawn)
      exact (hsuspended info hmem).2 hid.symm
    rw [hother id hne]
    apply h.silent id
    intro hold
    obtain ⟨info, hmem, hid⟩ := hsilent (hfollows.drawn.subset hold)
    exact ⟨info, (hsuspended info hmem).1, hid⟩
  · intro hopen id info hget
    by_cases heq : owner = id
    · exact heq ▸ halive hopen info (heq ▸ hget)
    · rw [hother id heq]
      exact h.alive (isOpen_of_follows hfollows hopen) id info (hkept id info heq hget)
  · intro id
    by_cases heq : owner = id
    · exact heq ▸ hstory
    · rw [hother id heq]
      exact (h.story id).concat a

/-- **A step of an upload** adds its events to the word of the upload, if it can be
    published, and to no other. -/
theorem of_put (h : Tells config actions w) (hfollows : w.Follows w') (hsound : w'.IsSound config)
    (hmemory : w'.engine.memory = (w.engine.memory.put info buffer).advance config.retainedUploads
      w.engine.broadcaster.isClosed info)
    (hpublished : w'.published
      = w.published ++ Engine.announced w.engine.broadcaster.isClosed kind info)
    (hdeclared : Declared config actions info) (hdrawn : info.id ∈ w.drawn)
    (hsuspended : ∀ other ∈ w'.suspended, other ∈ w.suspended ∧ info.id ≠ other.id)
    (hword : w.engine.broadcaster.isClosed = false →
      info.IsToldBy (w.history info.id ++ Engine.announced false kind info)) :
    Tells config (actions ++ [a]) w' := by
  have huploads : w'.engine.uploads = ((w.engine.memory.put info buffer).advance config.retainedUploads
      w.engine.broadcaster.isClosed info).uploads := congrArg Memory.uploads hmemory
  have hhistory := history_of_announced hpublished
  have hself : ∀ other, w'.engine.uploads.get? info.id = some other → other = info := by
    intro other hget
    rw [huploads] at hget
    rcases Memory.get?_of_put_advance hget with ⟨-, hsame⟩ | ⟨hne, -⟩
    · exact hsame
    · exact absurd rfl hne
  refine h.of_owner hfollows hsound hdrawn ?_ ?_ hsuspended ?_ ?_ ?_
  · intro id hne
    rw [hhistory, if_neg hne, List.append_nil]
  · intro id other hne hget
    rw [huploads] at hget
    rcases Memory.get?_of_put_advance hget with ⟨heq, -⟩ | ⟨-, hbefore⟩
    · exact absurd heq hne
    · exact hbefore
  · intro other hget
    exact hself other hget ▸ hdeclared.concat a
  · intro hopen other hget
    have hwas := isOpen_of_follows hfollows hopen
    rw [hself other hget, hhistory, if_pos rfl, hwas]
    exact hword hwas
  · rw [hhistory, if_pos rfl]
    cases hclosed : w.engine.broadcaster.isClosed with
    | true =>
      have hnone : Engine.announced true kind info = [] := rfl
      rw [hnone, List.append_nil]
      exact (h.story info.id).concat a
    | false =>
      obtain ⟨life, rfl, hended, -, horderly, hlife⟩ := hword hclosed
      refine Or.inr ⟨life, rfl, hdeclared.concat a, horderly, ?_, hlife⟩
      intro hends
      rw [hended] at hends
      cases hends

/-- The end of an upload ends its word, if it can be published. -/
theorem of_terminated (h : Tells config actions w) (hfollows : w.Follows w') (hsound : w'.IsSound config)
    (hget : w.engine.uploads.get? id = some info)
    (hmemory : w'.engine.memory = w.engine.memory.forget id) (hsuspended : w'.suspended = w.suspended)
    (hpublished : w'.published
      = w.published ++ if w.engine.broadcaster.isClosed then [] else [info.event .terminated]) :
    Tells config (actions ++ [.terminate id]) w' := by
  obtain rfl := h.sound.id_eq hget
  have huploads : w'.engine.uploads = w.engine.uploads.erase info.id := congrArg Memory.uploads hmemory
  have hhistory := history_of_terminated hpublished
  have hgone : w'.engine.uploads.get? info.id = none := by
    rw [huploads, OrderedMap.get?_erase, if_pos rfl]
  refine h.of_owner hfollows hsound (h.sound.enrolled _ info hget).drawn ?_ ?_ ?_ ?_ ?_ ?_
  · intro id hne
    rw [hhistory, if_neg hne, List.append_nil]
  · intro id other hne hother
    rw [huploads, OrderedMap.get?_erase, if_neg hne] at hother
    exact hother
  · intro other hother
    have hmem : other ∈ w.suspended := hsuspended ▸ hother
    exact ⟨hmem, h.sound.ne_of_awaits hget hmem⟩
  · intro other hother
    cases hgone.symm.trans hother
  · intro _ other hother
    cases hgone.symm.trans hother
  · rw [hhistory, if_pos rfl]
    cases hclosed : w.engine.broadcaster.isClosed with
    | true =>
      rw [if_pos rfl, List.append_nil]
      exact (h.story info.id).concat _
    | false =>
      obtain ⟨life, rfl, hended, hreached, horderly, hlife⟩ := h.alive hclosed _ info hget
      have hlast : life.last = life.info := by
        rw [Life.last, hreached]
        rfl
      refine Or.inr ⟨{ life with isEnded := true }, rfl, (h.known _ _ hget).concat _,
        ⟨horderly.increasing, horderly.bounded⟩, ?_, ?_⟩
      · intro _
        exact List.mem_append_right _ (List.mem_singleton.mpr rfl)
      · rw [Life.word_end hended, hlast, hlife]
        rfl

/-- A creation whose row was just added has nothing told about it. -/
theorem of_enrolled (h : Tells config actions w) (hfollows : w.Follows w') (hsound : w'.IsSound config)
    {header? : Option Text} {createdAt : Timestamp} (hsize : (info.size : Int) ≤ config.maximumUploadSize)
    (hmetadata : Metadata.decode header? = .ok info.metadata)
    (hmemory : w'.engine.memory = w.engine.memory) (hdrawn : w'.drawn = w.drawn ++ [info.id])
    (hsuspended : w'.suspended = w.suspended ++ [info]) (hpublished : w'.published = w.published)
    (hdistinct : w'.drawn.Nodup) :
    Tells config (actions ++ [.enroll info.id header? info.size createdAt]) w' := by
  have hnew : info.id ∉ w.drawn := notMem_drawn hdrawn hdistinct
  apply h.of_quiet hfollows hsound hmemory hpublished
  · intro other hother
    rw [hsuspended] at hother
    rcases List.mem_append.mp hother with hother | hother
    · exact (h.suspended other hother).concat _
    · obtain rfl := List.mem_singleton.mp hother
      exact ⟨hsize, header?, createdAt, List.mem_append_right _ (List.mem_singleton.mpr rfl), hmetadata⟩
  · intro id hid
    apply h.silent id
    intro hold
    obtain ⟨other, hother, hid'⟩ := hid (hfollows.drawn.subset hold)
    rw [hsuspended] at hother
    rcases List.mem_append.mp hother with hother | hother
    · exact ⟨other, hother, hid'⟩
    · rw [List.mem_singleton.mp hother] at hid'
      exact absurd (hid' ▸ hold) hnew

theorem of_registered (h : Tells config actions w) (hfollows : w.Follows w') (hsound : w'.IsSound config)
    {i : Nat} (hi : w.suspended[i]? = some info)
    (hmemory : w'.engine.memory = (w.engine.memory.put info []).advance config.retainedUploads
      w.engine.broadcaster.isClosed info)
    (hsuspended : w'.suspended = w.suspended.eraseIdx i)
    (hpublished : w'.published
      = w.published ++ Engine.announced w.engine.broadcaster.isClosed .created info) :
    Tells config (actions ++ [a]) w' := by
  have hmem := List.mem_of_getElem? hi
  have hawaits := h.sound.awaits info hmem
  refine h.of_put hfollows hsound hmemory hpublished (h.suspended info hmem) hawaits.enrolled.drawn
    ?_ ?_
  · intro other hother
    exact h.sound.ne_of_mem_eraseIdx hi (hsuspended ▸ hother)
  · intro _
    have hnone : w.history info.id = [] := h.silent info.id fun _ => ⟨info, hmem, rfl⟩
    refine ⟨{ info }, rfl, rfl, hawaits.offset_eq.symm, Life.isOrderly_create info, ?_⟩
    rw [hnone, Life.word_create hawaits.offset_eq, List.nil_append]

theorem of_written (h : Tells config actions w) (hfollows : w.Follows w') (hsound : w'.IsSound config)
    {data : Bytes} (hget : w.engine.uploads.get? id = some info) (hdata : data ≠ [])
    (hsize : info.offset + data.length ≤ info.size)
    (hmemory : w'.engine.memory
      = (w.engine.memory.put (info.withOffset (info.offset + data.length)) buffer).advance
        config.retainedUploads w.engine.broadcaster.isClosed
        (info.withOffset (info.offset + data.length)))
    (hsuspended : w'.suspended = w.suspended)
    (hpublished : w'.published = w.published ++ Engine.announced w.engine.broadcaster.isClosed .progress
      (info.withOffset (info.offset + data.length))) :
    Tells config (actions ++ [a]) w' := by
  obtain rfl := h.sound.id_eq hget
  have hoctets : 0 < data.length := List.length_pos_iff.mpr hdata
  refine h.of_put hfollows hsound hmemory hpublished (h.known _ info hget)
    (h.sound.enrolled _ info hget).drawn ?_ ?_
  · intro other hother
    have hmem : other ∈ w.suspended := hsuspended ▸ hother
    exact ⟨hmem, h.sound.ne_of_awaits hget hmem⟩
  · intro hopen
    obtain ⟨life, rfl, hended, hreached, horderly, hlife⟩ := h.alive hopen _ info hget
    have hgrows : life.reached < life.info.offset + data.length := by omega
    have hlacks : life.reached < life.info.size := by omega
    have hgrown := horderly.grow hgrows hsize
    refine ⟨{ life with
        info := life.info.withOffset (life.info.offset + data.length)
        offsets := life.offsets ++ [life.info.offset + data.length] },
      rfl, hended, ?_, ⟨hgrown.increasing, hgrown.bounded⟩, ?_⟩
    · exact List.getLastD_concat
    · exact (congrArg (· ++ _) hlife).trans (Life.word_grow hended hlacks hsize).symm

/-- **Every action goes on with the stories**, as long as the ids are distinct. -/
theorem of_effect (h : Tells config actions w) (hfollows : w.Follows w') (heffect : w.Effect config w' a)
    (hdistinct : w'.drawn.Nodup) : Tells config (actions ++ [a]) w' := by
  have hsound := h.sound.of_effect hfollows heffect hdistinct
  cases heffect with
  | idle _ hmemory hsuspended hpublished =>
    apply h.of_quiet hfollows hsound hmemory hpublished
    · intro info hinfo
      exact (h.suspended info (hsuspended ▸ hinfo)).concat _
    · intro id hid
      apply h.silent id
      intro hold
      exact hsuspended ▸ hid (hfollows.drawn.subset hold)
  | enrolled info header? createdAt _ hsize hmetadata _ hmemory hdrawn hsuspended hpublished =>
    exact h.of_enrolled hfollows hsound hsize hmetadata hmemory hdrawn hsuspended hpublished hdistinct
  | registered i info hi hmemory hsuspended hpublished =>
    exact h.of_registered hfollows hsound hi hmemory hsuspended hpublished
  | written id offset data info hget hdata hsize hmemory hsuspended hpublished =>
    exact h.of_written hfollows hsound hget hdata hsize hmemory hsuspended hpublished
  | terminated id info hget hmemory hsuspended hpublished =>
    exact h.of_terminated hfollows hsound hget hmemory hsuspended hpublished

end Tells

theorem tells_run (config : Config) (store : Store) (broadcaster : Broadcaster) (telemetry : Telemetry)
    (actions : List Action)
    (hdistinct : ((start store broadcaster telemetry).run config actions).drawn.Nodup) :
    Tells config actions ((start store broadcaster telemetry).run config actions) := by
  refine run_induction (motive := Tells config) config _ (tells_start config store broadcaster telemetry)
    ?_ actions hdistinct
  intro actions a w w' h hfollows heffect hdrawn
  exact h.of_effect hfollows heffect hdrawn

/-! ### After an upload has left -/

/-- The creation that drew an id is not in progress any more. -/
structure IsSettled (w : Workload) (id : Text) : Prop where
  drawn : id ∈ w.drawn
  suspended : ∀ info ∈ w.suspended, info.id ≠ id

theorem isSettled_of_mem (h : w.IsSound config) (hmem : id ∈ w.engine.uploads.keys) : w.IsSettled id := by
  obtain ⟨info, hget⟩ := OrderedMap.mem_keys_iff.mp hmem
  refine ⟨h.id_eq hget ▸ (h.enrolled id info hget).drawn, ?_⟩
  intro other hother hid
  exact h.ne_of_awaits hget hother hid.symm

theorem Tells.isSettled_of_history (h : Tells config actions w) (hhistory : w.history id ≠ []) :
    w.IsSettled id := by
  constructor
  · by_contra hdrawn
    exact hhistory (h.silent id fun hold => absurd hold hdrawn)
  · intro info hinfo hid
    exact hhistory (h.silent id fun _ => ⟨info, hinfo, hid⟩)

/-- A creation in progress was so before, or draws an id that is new. -/
theorem mem_suspended_of_effect (heffect : w.Effect config w' a) (hdistinct : w'.drawn.Nodup)
    (hmem : info ∈ w'.suspended) : info ∈ w.suspended ∨ info.id ∉ w.drawn := by
  cases heffect with
  | idle _ _ hsuspended _ => exact Or.inl (hsuspended ▸ hmem)
  | enrolled added _ _ _ _ _ _ _ hdrawn hsuspended _ =>
    rw [hsuspended] at hmem
    rcases List.mem_append.mp hmem with hmem | hmem
    · exact Or.inl hmem
    · rw [List.mem_singleton.mp hmem]
      exact Or.inr (notMem_drawn hdrawn hdistinct)
  | registered i _ _ _ hsuspended _ =>
    exact Or.inl ((List.eraseIdx_sublist _ _).subset (hsuspended ▸ hmem))
  | written _ _ _ _ _ _ _ _ hsuspended _ => exact Or.inl (hsuspended ▸ hmem)
  | terminated _ _ _ _ hsuspended _ => exact Or.inl (hsuspended ▸ hmem)

theorem IsSettled.of_effect (h : w.IsSettled id) (hfollows : w.Follows w') (heffect : w.Effect config w' a)
    (hdistinct : w'.drawn.Nodup) : w'.IsSettled id := by
  refine ⟨hfollows.drawn.subset h.drawn, ?_⟩
  rintro info hinfo rfl
  rcases mem_suspended_of_effect heffect hdistinct hinfo with hbefore | hnew
  · exact h.suspended info hbefore rfl
  · exact hnew h.drawn

theorem IsSettled.run (h : w.IsSettled id) (actions : List Action)
    (hdistinct : (w.run config actions).drawn.Nodup) : (w.run config actions).IsSettled id := by
  refine run_induction (motive := fun _ v => v.IsSettled id) config w h ?_ actions hdistinct
  intro actions a v v' hv hfollows heffect hdrawn
  exact hv.of_effect hfollows heffect hdrawn

/-- The story of an id is over: its upload is not in memory, and will not be. -/
structure IsOver (config : Config) (w : Workload) (id : Text) (events : List Event) : Prop where
  sound : w.IsSound config
  settled : w.IsSettled id
  unknown : w.engine.uploads.get? id = none
  history : w.history id = events

namespace IsOver

/-- What is in memory is another upload. -/
theorem ne_of_get? (h : IsOver config w id events) {owner : Text}
    (hget : w.engine.uploads.get? owner = some info) : info.id ≠ id := by
  intro hid
  rw [← h.sound.id_eq hget, hid, h.unknown] at hget
  cases hget

/-- A step of another upload changes nothing about it. -/
theorem of_put (h : IsOver config w id events) (hsound : w'.IsSound config) (hsettled : w'.IsSettled id)
    {isClosed : Bool} (hother : info.id ≠ id)
    (hmemory : w'.engine.memory
      = (w.engine.memory.put info buffer).advance config.retainedUploads isClosed info)
    (hpublished : w'.published = w.published ++ Engine.announced isClosed kind info) :
    IsOver config w' id events := by
  have huploads : w'.engine.uploads = ((w.engine.memory.put info buffer).advance
      config.retainedUploads isClosed info).uploads := congrArg Memory.uploads hmemory
  refine ⟨hsound, hsettled, ?_, ?_⟩
  · cases hget : w'.engine.uploads.get? id with
    | none => rfl
    | some found =>
      rw [huploads] at hget
      rcases Memory.get?_of_put_advance hget with ⟨heq, -⟩ | ⟨-, hbefore⟩
      · exact absurd heq hother
      · exact hbefore.symm.trans h.unknown
  · rw [history_of_announced hpublished, if_neg hother, List.append_nil, h.history]

/-- **A story that is over stays so**: nothing more is published. -/
theorem of_effect (h : IsOver config w id events) (hfollows : w.Follows w')
    (heffect : w.Effect config w' a) (hdistinct : w'.drawn.Nodup) : IsOver config w' id events := by
  have hsound := h.sound.of_effect hfollows heffect hdistinct
  have hsettled := h.settled.of_effect hfollows heffect hdistinct
  cases heffect with
  | idle _ hmemory _ hpublished =>
    have huploads : w'.engine.uploads = w.engine.uploads := congrArg Memory.uploads hmemory
    refine ⟨hsound, hsettled, huploads ▸ h.unknown, ?_⟩
    rw [Workload.history, hpublished, ← h.history, Workload.history]
  | enrolled _ _ _ _ _ _ _ hmemory _ _ hpublished =>
    have huploads : w'.engine.uploads = w.engine.uploads := congrArg Memory.uploads hmemory
    refine ⟨hsound, hsettled, huploads ▸ h.unknown, ?_⟩
    rw [Workload.history, hpublished, ← h.history, Workload.history]
  | registered i info hi hmemory _ hpublished =>
    have hother := h.settled.suspended info (List.mem_of_getElem? hi)
    exact h.of_put hsound hsettled hother hmemory hpublished
  | written owner offset data info hget _ _ hmemory _ hpublished =>
    have hsame : info.id ≠ id := h.ne_of_get? hget
    have hother : (info.withOffset (info.offset + data.length)).id ≠ id := hsame
    exact h.of_put hsound hsettled hother hmemory hpublished
  | terminated owner info hget hmemory _ hpublished =>
    have huploads : w'.engine.uploads = w.engine.uploads.erase owner := congrArg Memory.uploads hmemory
    refine ⟨hsound, hsettled, ?_, ?_⟩
    · rw [huploads, OrderedMap.get?_erase, h.unknown, ite_self]
    · rw [history_of_terminated hpublished, if_neg (h.ne_of_get? hget), List.append_nil, h.history]

theorem run (h : IsOver config w id events) (actions : List Action)
    (hdistinct : (w.run config actions).drawn.Nodup) : IsOver config (w.run config actions) id events := by
  refine run_induction (motive := fun _ v => IsOver config v id events) config w h ?_ actions hdistinct
  intro actions a v v' hv hfollows heffect hdrawn
  exact hv.of_effect hfollows heffect hdrawn

end IsOver

/-! ### The story of every upload -/

/-- **What is published about one upload.**  However creations, writes and other
    operations interleave and fail, if the ids that were drawn are distinct, then the
    events of an id are none or the word of one life: it is created with offset zero,
    grows to offsets that increase up to at most its size, is complete right after the
    event at which its size was reached, and is ended last and only on request, all
    with the size and the metadata of its creation.  Once an upload that was in memory
    or that was told about is in memory no more, nothing is published about it, and
    nothing is published when uploads are pushed out of memory. -/
theorem story_of_run (config : Config) (store : Store) (broadcaster : Broadcaster) (telemetry : Telemetry)
    (actions : List Action)
    (hdistinct : ((start store broadcaster telemetry).run config actions).drawn.Nodup) (id : Text) :
    let state := fun actions => (start store broadcaster telemetry).run config actions
    IsStory config actions id ((state actions).history id)
      ∧ (∀ early middle late, actions = early ++ middle ++ late →
        id ∈ (state early).engine.uploads.keys ∨ (state early).history id ≠ [] →
        id ∉ (state (early ++ middle)).engine.uploads.keys →
        (state actions).history id = (state (early ++ middle)).history id)
      ∧ ∀ e : Engine, (Engine.evict config.retainedUploads e).engine.broadcaster = e.broadcaster := by
  intro state
  refine ⟨(tells_run config store broadcaster telemetry actions hdistinct).story id, ?_, ?_⟩
  · rintro early middle late rfl hbegun hgone
    have hlate : state (early ++ middle ++ late) = (state (early ++ middle)).run config late :=
      run_append config _ _ _
    have hmiddle : state (early ++ middle) = (state early).run config middle := run_append config _ _ _
    have hdrawn : (state (early ++ middle ++ late)).drawn.Nodup := hdistinct
    rw [hlate] at hdrawn
    have hdrawn' := hdrawn.sublist (follows_run config _ late).drawn.sublist
    have htells := tells_run config store broadcaster telemetry (early ++ middle) hdrawn'
    rw [hmiddle] at hdrawn'
    have hearly := tells_run config store broadcaster telemetry early
      (hdrawn'.sublist (follows_run config _ middle).drawn.sublist)
    have hsettled : (state early).IsSettled id := by
      rcases hbegun with hmem | htold
      · exact isSettled_of_mem hearly.sound hmem
      · exact hearly.isSettled_of_history htold
    have hstill := hsettled.run middle hdrawn'
    rw [← hmiddle] at hstill
    have hover : IsOver config (state (early ++ middle)) id ((state (early ++ middle)).history id) :=
      ⟨htells.sound, hstill, OrderedMap.get?_eq_none_iff.mpr hgone, rfl⟩
    rw [hlate]
    exact (hover.run late hdrawn).history
  · intro e
    have hsame := (Engine.evict_publishes config.retainedUploads e).broadcaster
    rw [hsame, List.map_nil, List.append_nil]

def wholeLife : List Action :=
  [.connectStore, .enroll (Text.of "a") (some (Text.of "k dg==")) 3 { year := 2024, month := 1, day := 1 },
    .register 0, .write (Text.of "a") 0 [120], .write (Text.of "a") 1 [121, 122], .terminate (Text.of "a")]

theorem story_of_run_wholeLife :
    (plainStart.run {} (wholeLife ++ [.write (Text.of "a") 3 [123]])).drawn.Nodup
      ∧ ((plainStart.run {} wholeLife).history (Text.of "a")).map (fun ev => (ev.kind, ev.offset))
        = [(.created, 0), (.progress, 1), (.progress, 3), (.completed, 3), (.terminated, 3)]
      ∧ IsStory {} (wholeLife ++ [.write (Text.of "a") 3 [123]]) (Text.of "a")
        ((plainStart.run {} (wholeLife ++ [.write (Text.of "a") 3 [123]])).history (Text.of "a"))
      ∧ (plainStart.run {} (wholeLife ++ [.write (Text.of "a") 3 [123]])).history (Text.of "a")
        = (plainStart.run {} wholeLife).history (Text.of "a") := by
  have hdistinct : (plainStart.run {} (wholeLife ++ [.write (Text.of "a") 3 [123]])).drawn.Nodup := by
    decide +kernel
  have htold : ((plainStart.run {} wholeLife).history (Text.of "a")).map (fun ev => (ev.kind, ev.offset))
      = [(.created, 0), (.progress, 1), (.progress, 3), (.completed, 3), (.terminated, 3)] := by
    decide +kernel
  have hgone : Text.of "a" ∉ (plainStart.run {} (wholeLife ++ [])).engine.uploads.keys := by decide +kernel
  obtain ⟨hstory, hquiet, -⟩ := story_of_run {} _ _ _ _ hdistinct (Text.of "a")
  refine ⟨hdistinct, htold, hstory, hquiet wholeLife [] _ rfl (Or.inr ?_) hgone⟩
  intro hnone
  rw [show (plainStart.run {} wholeLife).history (Text.of "a") = [] from hnone] at htold
  cases htold

end Workload

end UploadGate

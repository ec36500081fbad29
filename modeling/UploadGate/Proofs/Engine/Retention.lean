/-
  UploadGate/Proofs/Engine/Retention.lean
  =======================================
  **Which uploads stay in memory, and in what order the others leave it.**

  An upload leaves memory when it is ended, or when another one becomes complete and it
  is then the oldest of the complete ones, of which one too many would stay.  What a
  step of an upload makes of the list of complete ones is said once (`Turn`): it stays,
  grows at its end, or grows at its end and loses its front.  The list is therefore always
  a part of the sequence in which uploads became complete, and what follows an upload in
  that sequence stays behind it.
-/
import UploadGate.Proofs.Engine.Contents

namespace UploadGate

namespace Memory

variable {limit retained : Int} {m : Memory} {id : Text}

/-- An upload that becomes complete finds room, or takes that of the oldest one. -/
theorem finish_cases (hretained : 0 ≤ retained) (hroom : (m.completed.length : Int) ≤ retained)
    (horder : m.completed.Nodup) (hlisted : id ∉ m.completed) :
    m.finish retained id = { m with completed := m.completed ++ [id] }
      ∨ ∃ oldest rest, m.completed ++ [id] = oldest :: rest ∧ (rest.length : Int) = retained
        ∧ m.finish retained id = ⟨m.uploads.erase oldest, m.buffers.erase oldest, rest⟩ := by
  have hlength : (m.completed ++ [id]).length = m.completed.length + 1 := by simp
  by_cases hfull : (m.completed.length : Int) = retained
  · right
    obtain ⟨oldest, rest, hsplit⟩ := List.exists_cons_of_length_eq_add_one hlength
    have hone : m.completed.length + 1 - retained.toNat = 1 := by omega
    have hnodup : (oldest :: rest).Nodup := by
      rw [← hsplit, List.nodup_append]
      refine ⟨horder, List.nodup_singleton _, ?_⟩
      rintro a ha b hb rfl
      exact hlisted (List.mem_singleton.mp hb ▸ ha)
    have hrest : (oldest :: rest).filter (· ≠ oldest) = rest := by
      rw [List.filter_cons_of_neg (by simp), List.filter_eq_self]
      intro other hother
      have hne : other ≠ oldest := by
        rintro rfl
        exact (List.nodup_cons.mp hnodup).1 hother
      simpa using hne
    refine ⟨oldest, rest, hsplit, ?_, ?_⟩
    · have hcount := congrArg List.length hsplit
      rw [hlength, List.length_cons] at hcount
      omega
    · rw [finish, evict, hlength, hone, hsplit]
      simp only [List.take_succ_cons, List.take_zero, List.foldl_cons, List.foldl_nil, forget, hrest]
  · left
    have hnone : m.completed.length + 1 - retained.toNat = 0 := by omega
    rw [finish, evict, hlength, hnone]
    rfl

end Memory

theorem Life.offset_of_mem_word (l : Life) {ev : Event} (hmem : ev ∈ l.word) (hkind : ev.kind = .completed) :
    ev.offset = ev.size := by
  simp only [Life.word, List.mem_append, List.mem_cons, List.mem_map] at hmem
  rcases hmem with ((rfl | ⟨offset, -, rfl⟩) | hdone) | hended
  · cases hkind
  · cases hkind
  · split at hdone
    · rename_i hreached
      obtain rfl := List.mem_singleton.mp hdone
      exact congrArg Int.ofNat hreached
    · cases hdone
  · split at hended
    · obtain rfl := List.mem_singleton.mp hended
      cases hkind
    · cases hended

namespace Workload

/-! ### Completions -/

/-- The ids of the uploads that became complete, in that order. -/
def completions (w : Workload) : List Text := (w.published.filter (·.kind = .completed)).map (·.uploadId)

/-- An upload became complete before another one did. -/
def CompletedBefore (w : Workload) (id other : Text) : Prop := [id, other].Sublist w.completions

variable {config : Config} {w w' : Workload} {a : Action} {info : UploadInfo} {buffer : Bytes}
  {kind : EventKind} {id other : Text}

theorem completions_append {events : List Event} (h : w'.published = w.published ++ events) :
    w'.completions = w.completions ++ (events.filter (·.kind = .completed)).map (·.uploadId) := by
  rw [completions, h, List.filter_append, List.map_append]
  rfl

theorem completions_of_announced (hkind : kind ≠ .completed)
    (h : w'.published = w.published ++ Engine.announced false kind info) :
    w'.completions = w.completions ++ if info.isComplete then [info.id] else [] := by
  rw [completions_append h]
  congr 1
  unfold Engine.announced
  cases info.isComplete with
  | false => simp [UploadInfo.event, hkind]
  | true => simp [UploadInfo.event, hkind]

/-! ### A step of an upload -/

inductive Turn (config : Config) (w w' : Workload) (info : UploadInfo) : Prop
  | grows (hoffset : info.offset ≠ info.size) (huploads : w'.engine.uploads = w.engine.uploads.set info.id info)
      (hcompleted : w'.engine.completed = w.engine.completed) (hcompletions : w'.completions = w.completions)
  | completes (hoffset : info.offset = info.size)
      (huploads : w'.engine.uploads = w.engine.uploads.set info.id info)
      (hcompleted : w'.engine.completed = w.engine.completed ++ [info.id])
      (hcompletions : w'.completions = w.completions ++ [info.id])
  /-- The upload is complete, and the oldest of the complete ones, perhaps itself, goes. -/
  | evicts (oldest : Text) (hoffset : info.offset = info.size)
      (huploads : w'.engine.uploads = (w.engine.uploads.set info.id info).erase oldest)
      (hcompleted : w.engine.completed ++ [info.id] = oldest :: w'.engine.completed)
      (hroom : (w'.engine.completed.length : Int) = config.retainedUploads)
      (hcompletions : w'.completions = w.completions ++ [info.id])

/-- **Putting an upload into memory** that is not listed as complete takes one of these turns. -/
theorem turn_of_put (h : w.IsRunning config) (hretained : 0 ≤ config.retainedUploads)
    (hmemory : w'.engine.memory = (w.engine.memory.put info buffer).advance config.retainedUploads
      w.engine.broadcaster.isClosed info)
    (hpublished : w'.published
      = w.published ++ Engine.announced w.engine.broadcaster.isClosed kind info)
    (hkind : kind ≠ .completed) (hoffset : info.offset ≤ info.size)
    (hlisted : info.id ∉ w.engine.completed) : Turn config w w' info := by
  rw [h.isOpen] at hmemory hpublished
  have hcompletions := completions_of_announced hkind hpublished
  cases hdone : info.isComplete with
  | false =>
    have hlacks : info.offset ≠ info.size := by
      intro heq
      simp [UploadInfo.isComplete, heq] at hdone
    rw [Memory.advance, hdone] at hmemory
    rw [hdone] at hcompletions
    exact .grows hlacks (congrArg Memory.uploads hmemory) (congrArg Memory.completed hmemory)
      (hcompletions.trans (List.append_nil _))
  | true =>
    have hall : info.offset = info.size := by
      have hle : info.size ≤ info.offset := by simpa [UploadInfo.isComplete] using hdone
      omega
    rw [Memory.advance, hdone] at hmemory
    rw [hdone] at hcompletions
    have hfinish : w'.engine.memory = (w.engine.memory.put info buffer).finish config.retainedUploads info.id :=
      hmemory
    rcases Memory.finish_cases (m := w.engine.memory.put info buffer) hretained (h.sound.room hretained)
      h.sound.memory.order hlisted with hroom | ⟨oldest, rest, hsplit, hlength, hevicted⟩
    · rw [hroom] at hfinish
      exact .completes hall (congrArg Memory.uploads hfinish) (congrArg Memory.completed hfinish) hcompletions
    · rw [hevicted] at hfinish
      obtain rfl : w'.engine.completed = rest := congrArg Memory.completed hfinish
      exact .evicts oldest hall (congrArg Memory.uploads hfinish) hsplit hlength hcompletions

theorem turn_register (h : w.IsRunning config) (hretained : 0 ≤ config.retainedUploads) {i : Nat}
    (hi : w.suspended[i]? = some info) : Turn config w (w.step config (.register i)) info := by
  have hmem := List.mem_of_getElem? hi
  have hoffset := (h.sound.awaits info hmem).offset_eq
  have hannounces := Engine.register_announces config w.engine info
  have hcreated : EventKind.created ≠ .completed := by decide
  have hturn : Turn config w (w.after (w.engine.register config info).engine) info :=
    turn_of_put h hretained hannounces.memory (published_after hannounces.publishes) hcreated (by omega)
      (h.sound.notMem_completed_of_suspended hmem)
  rw [step_register_of_some hi]
  cases hturn with
  | grows hlacks huploads hcompleted hcompletions => exact .grows hlacks huploads hcompleted hcompletions
  | completes hall huploads hcompleted hcompletions => exact .completes hall huploads hcompleted hcompletions
  | evicts oldest hall huploads hcompleted hroom hcompletions =>
    exact .evicts oldest hall huploads hcompleted hroom hcompletions

/-! ### An action -/

/-- An upload has not become complete yet: its creation has yet to go on, or it is in
    memory and lacks octets. -/
def IsUnfinished (w : Workload) (id : Text) : Prop :=
  (∃ info ∈ w.suspended, info.id = id)
    ∨ ∃ info, w.engine.uploads.get? id = some info ∧ info.offset ≠ info.size

inductive Passes (config : Config) (w w' : Workload) : Action → Prop
  | quiet (a : Action) (huploads : w'.engine.uploads = w.engine.uploads)
      (hcompleted : w'.engine.completed = w.engine.completed) (hcompletions : w'.completions = w.completions) :
      Passes config w w' a
  | turned (a : Action) (info : UploadInfo) (hunfinished : w.IsUnfinished info.id)
      (hsettled : w'.IsSettled info.id) (hturn : Turn config w w' info) : Passes config w w' a
  | ended (id : Text) (huploads : w'.engine.uploads = w.engine.uploads.erase id)
      (hcompleted : w'.engine.completed = w.engine.completed.filter (· ≠ id))
      (hcompletions : w'.completions = w.completions) : Passes config w w' (.terminate id)

theorem completions_of_published_eq (h : w'.published = w.published) : w'.completions = w.completions := by
  rw [completions, h]
  rfl

theorem passes_step (h : w.IsRunning config) (hretained : 0 ≤ config.retainedUploads)
    (h' : (w.step config a).drawn.Nodup) : Passes config w (w.step config a) a := by
  have heffect := effect_step config w a
  have hfollows := follows_step config w a
  have hsettled : ∀ id, w.IsSettled id → (w.step config a).IsSettled id := by
    intro id hid
    exact hid.of_effect hfollows heffect h'
  obtain ⟨after, hafter⟩ : ∃ after, after = w.step config a := ⟨_, rfl⟩
  rw [← hafter] at heffect hsettled hfollows ⊢
  cases heffect with
  | idle _ hmemory _ hpublished =>
    exact .quiet _ (congrArg Memory.uploads hmemory) (congrArg Memory.completed hmemory)
      (completions_of_published_eq hpublished)
  | enrolled _ _ _ _ _ _ _ hmemory _ _ hpublished =>
    exact .quiet _ (congrArg Memory.uploads hmemory) (congrArg Memory.completed hmemory)
      (completions_of_published_eq hpublished)
  | registered i info hi _ hsuspended _ =>
    have hmem := List.mem_of_getElem? hi
    refine .turned _ info (Or.inl ⟨info, hmem, rfl⟩) ?_ (hafter ▸ turn_register h hretained hi)
    refine ⟨hfollows.drawn.subset (h.sound.awaits info hmem).enrolled.drawn, ?_⟩
    intro other hother hid
    exact (h.sound.ne_of_mem_eraseIdx hi (hsuspended ▸ hother)).2 hid.symm
  | written owner offset data info hget hdata hsize hmemory hsuspended hpublished =>
    obtain rfl := h.sound.id_eq hget
    have hoctets : 0 < data.length := List.length_pos_iff.mpr hdata
    have hlacks : info.offset ≠ info.size := by omega
    have hprogress : EventKind.progress ≠ .completed := by decide
    refine .turned _ (info.withOffset (info.offset + data.length)) (Or.inr ⟨info, hget, hlacks⟩)
      (hsettled _ (isSettled_of_mem h.sound (OrderedMap.mem_keys_iff.mpr ⟨info, hget⟩))) ?_
    apply turn_of_put h hretained hmemory hpublished hprogress hsize
    exact h.sound.notMem_completed_of_ne hget hlacks
  | terminated id info _ hmemory _ hpublished =>
    rw [h.isOpen] at hpublished
    refine .ended id (congrArg Memory.uploads hmemory) (congrArg Memory.completed hmemory) ?_
    exact (completions_append hpublished).trans (List.append_nil _)

/-! ### The invariant -/

structure Retains (w : Workload) : Prop where
  listed : ∀ id info, w.engine.uploads.get? id = some info → info.offset = info.size →
    id ∈ w.engine.completed
  order : w.engine.completed.Sublist w.completions
  distinct : w.completions.Nodup
  finished : ∀ id ∈ w.completions, w.IsSettled id ∧
    ∀ info, w.engine.uploads.get? id = some info → info.offset = info.size

theorem Retains.notMem_completions (h : w.Retains) (hunfinished : w.IsUnfinished id) : id ∉ w.completions := by
  intro hmem
  obtain ⟨hsettled, hwhole⟩ := h.finished id hmem
  rcases hunfinished with ⟨info, hinfo, hid⟩ | ⟨info, hget, hlacks⟩
  · exact hsettled.suspended info hinfo hid
  · exact hlacks (hwhole info hget)

/-- The list of the complete uploads loses some, and grows by those that become complete. -/
theorem Passes.grows (h : Passes config w w' a) :
    ∃ new, w'.completions = w.completions ++ new
      ∧ w'.engine.completed.Sublist (w.engine.completed ++ new) := by
  cases h with
  | quiet _ _ hcompleted hcompletions =>
    refine ⟨[], ?_, ?_⟩
    · rw [hcompletions, List.append_nil]
    · rw [hcompleted, List.append_nil]
  | turned _ info _ _ hturn =>
    cases hturn with
    | grows _ _ hcompleted hcompletions =>
      refine ⟨[], ?_, ?_⟩
      · rw [hcompletions, List.append_nil]
      · rw [hcompleted, List.append_nil]
    | completes _ _ hcompleted hcompletions =>
      refine ⟨[info.id], hcompletions, ?_⟩
      rw [hcompleted]
    | evicts oldest _ _ hcompleted _ hcompletions =>
      refine ⟨[info.id], hcompletions, ?_⟩
      rw [hcompleted]
      exact List.sublist_cons_self _ _
  | ended id _ hcompleted hcompletions =>
    refine ⟨[], ?_, ?_⟩
    · rw [hcompletions, List.append_nil]
    · rw [hcompleted, List.append_nil]
      exact List.filter_sublist

/-- Where no upload becomes complete, what is in memory was there before or lacks octets. -/
theorem Retains.of_none (h : w.Retains) (hcompletions : w'.completions = w.completions)
    (hcompleted : w'.engine.completed.Sublist w.engine.completed)
    (hsettled : ∀ id, w.IsSettled id → w'.IsSettled id)
    (hkept : ∀ id found, w'.engine.uploads.get? id = some found →
      (w.engine.uploads.get? id = some found ∧ (id ∈ w.engine.completed → id ∈ w'.engine.completed))
        ∨ (w.IsUnfinished id ∧ found.offset ≠ found.size)) : w'.Retains := by
  refine ⟨?_, ?_, ?_, ?_⟩
  · intro id found hget hall
    rcases hkept id found hget with ⟨hbefore, hstays⟩ | ⟨-, hlacks⟩
    · exact hstays (h.listed id found hbefore hall)
    · exact absurd hall hlacks
  · rw [hcompletions]
    exact hcompleted.trans h.order
  · rw [hcompletions]
    exact h.distinct
  · intro id hid
    rw [hcompletions] at hid
    obtain ⟨hwas, hwhole⟩ := h.finished id hid
    refine ⟨hsettled id hwas, ?_⟩
    intro found hget
    rcases hkept id found hget with ⟨hbefore, -⟩ | ⟨hunfinished, -⟩
    · exact hwhole found hbefore
    · exact absurd hid (h.notMem_completions hunfinished)

/-- An upload that becomes complete is the last to do so, and it was not complete before. -/
theorem Retains.of_one (h : w.Retains) (hall : info.offset = info.size)
    (hcompletions : w'.completions = w.completions ++ [info.id])
    (hcompleted : w'.engine.completed.Sublist (w.engine.completed ++ [info.id]))
    (hsettled : ∀ id, w.IsSettled id → w'.IsSettled id) (hself : w'.IsSettled info.id)
    (hunfinished : w.IsUnfinished info.id)
    (hkept : ∀ id found, w'.engine.uploads.get? id = some found →
      ((info.id = id ∧ found = info) ∨ (info.id ≠ id ∧ w.engine.uploads.get? id = some found))
        ∧ (id ∈ w.engine.completed ++ [info.id] → id ∈ w'.engine.completed)) : w'.Retains := by
  have hnew := h.notMem_completions hunfinished
  refine ⟨?_, ?_, ?_, ?_⟩
  · intro id found hget hwhole
    obtain ⟨hfound, hstays⟩ := hkept id found hget
    apply hstays
    rcases hfound with ⟨rfl, -⟩ | ⟨-, hbefore⟩
    · exact List.mem_append_right _ (List.mem_singleton.mpr rfl)
    · exact List.mem_append_left _ (h.listed id found hbefore hwhole)
  · rw [hcompletions]
    exact hcompleted.trans (h.order.append (List.Sublist.refl _))
  · rw [hcompletions, List.nodup_append]
    refine ⟨h.distinct, List.nodup_singleton _, ?_⟩
    rintro a ha b hb rfl
    exact hnew (List.mem_singleton.mp hb ▸ ha)
  · intro id hid
    rw [hcompletions] at hid
    rcases List.mem_append.mp hid with hold | hlast
    · obtain ⟨hwas, hwhole⟩ := h.finished id hold
      refine ⟨hsettled id hwas, ?_⟩
      intro found hget
      rcases (hkept id found hget).1 with ⟨rfl, -⟩ | ⟨-, hbefore⟩
      · exact absurd hold hnew
      · exact hwhole found hbefore
    · obtain rfl := List.mem_singleton.mp hlast
      refine ⟨hself, ?_⟩
      intro found hget
      rcases (hkept info.id found hget).1 with ⟨-, rfl⟩ | ⟨hne, -⟩
      · exact hall
      · exact absurd rfl hne

theorem get?_set_cases {found : UploadInfo}
    (h : (w.engine.uploads.set info.id info).get? id = some found) :
    (info.id = id ∧ found = info) ∨ (info.id ≠ id ∧ w.engine.uploads.get? id = some found) := by
  rw [OrderedMap.get?_set] at h
  split at h
  · rename_i heq
    exact Or.inl ⟨heq, (Option.some.inj h).symm⟩
  · rename_i hne
    exact Or.inr ⟨hne, h⟩

theorem Retains.of_turn (h : w.Retains) (hsettled : ∀ id, w.IsSettled id → w'.IsSettled id)
    (hself : w'.IsSettled info.id) (hunfinished : w.IsUnfinished info.id) (hturn : Turn config w w' info) :
    w'.Retains := by
  cases hturn with
  | grows hlacks huploads hcompleted hcompletions =>
    apply h.of_none hcompletions (hcompleted ▸ List.Sublist.refl _) hsettled
    intro id found hget
    rw [huploads] at hget
    rcases get?_set_cases hget with ⟨rfl, rfl⟩ | ⟨-, hbefore⟩
    · exact Or.inr ⟨hunfinished, hlacks⟩
    · exact Or.inl ⟨hbefore, fun hid => hcompleted ▸ hid⟩
  | completes hall huploads hcompleted hcompletions =>
    apply h.of_one hall hcompletions (hcompleted ▸ List.Sublist.refl _) hsettled hself hunfinished
    intro id found hget
    rw [huploads] at hget
    exact ⟨get?_set_cases hget, fun hid => hcompleted ▸ hid⟩
  | evicts oldest hall huploads hcompleted _ hcompletions =>
    have hlost : w'.engine.completed.Sublist (w.engine.completed ++ [info.id]) := by
      rw [hcompleted]
      exact List.sublist_cons_self _ _
    apply h.of_one hall hcompletions hlost hsettled hself hunfinished
    intro id found hget
    rw [huploads, OrderedMap.get?_erase] at hget
    split at hget
    · cases hget
    · rename_i hne
      refine ⟨get?_set_cases hget, ?_⟩
      intro hid
      rw [hcompleted] at hid
      rcases List.mem_cons.mp hid with rfl | hstays
      · exact absurd rfl hne
      · exact hstays

/-- **Every action keeps the order of the complete uploads.** -/
theorem Retains.step (h : w.Retains) (hrunning : w.IsRunning config) (hretained : 0 ≤ config.retainedUploads)
    (h' : (w.step config a).drawn.Nodup) : (w.step config a).Retains := by
  have hsettled : ∀ id, w.IsSettled id → (w.step config a).IsSettled id := by
    intro id hid
    exact hid.of_effect (follows_step config w a) (effect_step config w a) h'
  cases passes_step hrunning hretained h' with
  | quiet _ huploads hcompleted hcompletions =>
    apply h.of_none hcompletions (hcompleted ▸ List.Sublist.refl _) hsettled
    intro id found hget
    exact Or.inl ⟨huploads ▸ hget, fun hid => hcompleted ▸ hid⟩
  | turned _ info hunfinished hself hturn => exact h.of_turn hsettled hself hunfinished hturn
  | ended owner huploads hcompleted hcompletions =>
    apply h.of_none hcompletions (hcompleted ▸ List.filter_sublist) hsettled
    intro id found hget
    rw [huploads, OrderedMap.get?_erase] at hget
    split at hget
    · cases hget
    · rename_i hne
      refine Or.inl ⟨hget, ?_⟩
      intro hid
      rw [hcompleted, List.mem_filter]
      exact ⟨hid, by simpa using Ne.symm hne⟩

/-! ### Runs with an open broadcaster -/

theorem IsRunning.of_follows (h : w'.IsRunning config) (hfollows : w.Follows w') (hsound : w.IsSound config) :
    w.IsRunning config :=
  ⟨hsound, h.distinct.sublist hfollows.drawn.sublist, Tells.isOpen_of_follows hfollows h.isOpen⟩

theorem IsSound.run (h : w.IsSound config) (actions : List Action)
    (hdistinct : (w.run config actions).drawn.Nodup) : (w.run config actions).IsSound config := by
  refine run_induction (motive := fun _ v => v.IsSound config) config w h ?_ actions hdistinct
  intro _ a v v' hv hfollows heffect hdrawn
  exact hv.of_effect hfollows heffect hdrawn

/-- **Induction on a run** whose ids are distinct and whose broadcaster is open. -/
theorem running_induction {motive : Workload → Prop} (hsound : w.IsSound config) (hstart : motive w)
    (hstep : ∀ v a, v.IsRunning config → (v.step config a).IsRunning config → motive v →
      motive (v.step config a))
    (actions : List Action) (hrunning : (w.run config actions).IsRunning config) :
    motive (w.run config actions) := by
  induction actions using List.reverseRecOn with
  | nil => exact hstart
  | append_singleton actions a ih =>
    rw [run_concat] at hrunning ⊢
    have hfollows := follows_step config (w.run config actions) a
    have hbefore := hrunning.of_follows hfollows
      (hsound.run actions (hrunning.distinct.sublist hfollows.drawn.sublist))
    exact hstep _ a hbefore hrunning (ih hbefore)

theorem retains_run (config : Config) (store : Store) (broadcaster : Broadcaster) (telemetry : Telemetry)
    (hretained : 0 ≤ config.retainedUploads) (actions : List Action)
    (hrunning : ((start store broadcaster telemetry).run config actions).IsRunning config) :
    ((start store broadcaster telemetry).run config actions).Retains := by
  apply running_induction (isSound_start config store broadcaster telemetry) ?_ ?_ actions hrunning
  · refine ⟨?_, List.Sublist.refl _, List.nodup_nil, List.forall_mem_nil _⟩
    intro id info hget
    cases hget
  · intro w a hw hw' hretains
    exact hretains.step hw hretained hw'.distinct

/-- What became complete before those that are in memory is before those that will be. -/
theorem completedBefore_run (hsound : w.IsSound config) (hretained : 0 ≤ config.retainedUploads)
    (hmem : id ∈ w.completions) (hbefore : ∀ other ∈ w.engine.completed, w.CompletedBefore id other)
    (actions : List Action) (hrunning : (w.run config actions).IsRunning config) :
    ∀ other ∈ (w.run config actions).engine.completed, (w.run config actions).CompletedBefore id other := by
  have hboth : id ∈ (w.run config actions).completions
      ∧ ∀ other ∈ (w.run config actions).engine.completed, (w.run config actions).CompletedBefore id other := by
    apply running_induction (motive := fun v => id ∈ v.completions
      ∧ ∀ other ∈ v.engine.completed, v.CompletedBefore id other) hsound ⟨hmem, hbefore⟩ ?_ actions hrunning
    rintro v a hv hv' ⟨hin, hfirst⟩
    obtain ⟨new, hcompletions, hcompleted⟩ := (passes_step (a := a) hv hretained hv'.distinct).grows
    refine ⟨?_, ?_⟩
    · rw [hcompletions]
      exact List.mem_append_left _ hin
    · intro other hother
      rw [CompletedBefore, hcompletions]
      rcases List.mem_append.mp (hcompleted.subset hother) with hold | hlast
      · exact (hfirst other hold).trans (List.sublist_append_left _ _)
      · exact (List.singleton_sublist.mpr hin).append (List.singleton_sublist.mpr hlast)
  exact hboth.2

/-! ### Leaving memory -/

/-- An upload that is in memory, or that an action puts there, is not there after the action. -/
def Leaves (config : Config) (w : Workload) (a : Action) (info : UploadInfo) : Prop :=
  (w.engine.uploads.get? info.id = some info ∨ ∃ i, a = .register i ∧ w.suspended[i]? = some info)
    ∧ info.id ∉ (w.step config a).engine.uploads.keys

/-- An upload was pushed out of memory: it was complete, it was the oldest of the complete
    ones, and those that became complete after it and are in memory are as many as are to
    be kept. -/
structure Evicts (config : Config) (w w' : Workload) (id : Text) : Prop where
  complete : ∃ ev ∈ w'.published, ev.kind = .completed ∧ ev.uploadId = id ∧ ev.offset = ev.size
  oldest : ∃ last, w.engine.completed ++ [last] = id :: w'.engine.completed
  distinct : w'.engine.completed.Nodup
  retained : (w'.engine.completed.length : Int) = config.retainedUploads
  later : ∀ other, other ∈ w'.engine.completed
    ↔ other ∈ w'.engine.uploads.keys ∧ w'.CompletedBefore id other

theorem Tells.offset_of_completed {actions : List Action} (h : Tells config actions w) {ev : Event}
    (hmem : ev ∈ w.published) (hkind : ev.kind = .completed) : ev.offset = ev.size := by
  have hhistory : ev ∈ w.history ev.uploadId := List.mem_filter.mpr ⟨hmem, by simp⟩
  rcases h.story ev.uploadId with hnone | ⟨life, -, -, -, -, hword⟩
  · rw [hnone] at hhistory
    cases hhistory
  · rw [hword] at hhistory
    exact life.offset_of_mem_word hhistory hkind

theorem mem_completions_iff :
    id ∈ w.completions ↔ ∃ ev ∈ w.published, ev.kind = .completed ∧ ev.uploadId = id := by
  simp only [completions, List.mem_map, List.mem_filter, decide_eq_true_eq, and_assoc]

theorem Turn.of_notMem (h : Turn config w w' info) (hin : id ∈ (w.engine.uploads.set info.id info).keys)
    (hout : id ∉ w'.engine.uploads.keys) :
    w.engine.completed ++ [info.id] = id :: w'.engine.completed
      ∧ (w'.engine.completed.length : Int) = config.retainedUploads
      ∧ w'.completions = w.completions ++ [info.id] := by
  cases h with
  | grows _ huploads _ _ => exact absurd (huploads ▸ hin) hout
  | completes _ huploads _ _ => exact absurd (huploads ▸ hin) hout
  | evicts oldest _ huploads hcompleted hroom hcompletions =>
    obtain rfl : id = oldest := by
      by_contra hne
      apply hout
      rw [huploads, OrderedMap.keys_erase, List.mem_filter]
      exact ⟨hin, by simpa using hne⟩
    exact ⟨hcompleted, hroom, hcompletions⟩

theorem evicts_of_turn (h : w.Retains) (h' : w'.Retains) (hsound : w'.IsSound config)
    (hwhole : ∀ ev ∈ w'.published, ev.kind = .completed → ev.offset = ev.size)
    (hturn : Turn config w w' info) (hin : id ∈ (w.engine.uploads.set info.id info).keys)
    (hout : id ∉ w'.engine.uploads.keys) : Evicts config w w' id := by
  obtain ⟨hcompleted, hroom, hcompletions⟩ := hturn.of_notMem hin hout
  have hsequence : (id :: w'.engine.completed).Sublist w'.completions := by
    rw [← hcompleted, hcompletions]
    exact h.order.append (List.Sublist.refl _)
  obtain ⟨ev, hev, hkind, hid⟩ := mem_completions_iff.mp (hsequence.subset List.mem_cons_self)
  refine ⟨⟨ev, hev, hkind, hid, hwhole ev hev hkind⟩, ⟨info.id, hcompleted⟩, hsound.memory.order, hroom, ?_⟩
  intro other
  constructor
  · intro hother
    obtain ⟨found, hfound, -⟩ := hsound.memory.complete other hother
    refine ⟨OrderedMap.mem_keys_iff.mpr ⟨found, hfound⟩, ?_⟩
    exact List.Sublist.trans (List.cons_sublist_cons.mpr (List.singleton_sublist.mpr hother)) hsequence
  · rintro ⟨hmem, hbefore⟩
    obtain ⟨found, hfound⟩ := OrderedMap.mem_keys_iff.mp hmem
    have hin : other ∈ w'.completions := hbefore.subset (List.mem_cons_of_mem _ List.mem_cons_self)
    exact h'.listed other found hfound ((h'.finished other hin).2 found hfound)

/-- **An upload that leaves memory** was ended or pushed out. -/
theorem leaves_cases (hrunning : w.IsRunning config) (hrunning' : (w.step config a).IsRunning config)
    (hretained : 0 ≤ config.retainedUploads) (h : w.Retains) (h' : (w.step config a).Retains)
    (hwhole : ∀ ev ∈ (w.step config a).published, ev.kind = .completed → ev.offset = ev.size)
    (hleaves : Leaves config w a info) :
    a = .terminate info.id ∨ Evicts config w (w.step config a) info.id := by
  obtain ⟨hin, hout⟩ := hleaves
  rcases hin with hget | ⟨i, rfl, hi⟩
  · have hmem : info.id ∈ w.engine.uploads.keys := OrderedMap.mem_keys_iff.mpr ⟨info, hget⟩
    cases passes_step hrunning hretained hrunning'.distinct with
    | quiet _ huploads _ _ => exact absurd (huploads ▸ hmem) hout
    | turned _ owner _ _ hturn =>
      right
      apply evicts_of_turn h h' hrunning'.sound hwhole hturn ?_ hout
      rw [OrderedMap.keys_set]
      split
      · exact hmem
      · exact List.mem_append_left _ hmem
    | ended owner huploads _ _ =>
      left
      by_contra hne
      apply hout
      rw [huploads, OrderedMap.keys_erase, List.mem_filter]
      refine ⟨hmem, ?_⟩
      have hother : info.id ≠ owner := fun heq => hne (congrArg Action.terminate heq.symm)
      simpa using hother
  · right
    apply evicts_of_turn h h' hrunning'.sound hwhole (turn_register hrunning hretained hi) ?_ hout
    exact OrderedMap.mem_keys_iff.mpr ⟨info, (OrderedMap.get?_set _ _ _ _).trans (if_pos rfl)⟩

/-! ### Rows -/

/-- No action but closing a store that is not durable loses a row. -/
theorem keepsRows_step (ha : w.engine.store.isDurable = true ∨ a ≠ .closeStore) :
    w.engine.store.KeepsRows (w.step config a).engine.store := by
  cases a with
  | enroll id header? length createdAt =>
    obtain ⟨-, -, hstore⟩ := Engine.enroll_cases config w.engine id header? length createdAt
    rcases hstore with ⟨failure, -, hsame⟩ | ⟨info, -, henrolls⟩
    · exact Store.keepsRows_of_eq (congrArg Store.rows hsame)
    · exact Store.keepsRows_create henrolls.row
  | register i =>
    cases hi : w.suspended[i]? with
    | none =>
      rw [step_register_of_none hi]
      exact Store.keepsRows_of_eq rfl
    | some info =>
      rw [step_register_of_some hi]
      exact Store.keepsRows_of_eq
        (congrArg Store.rows (Engine.register_announces config w.engine info).publishes.store)
  | write id offset data =>
    obtain ⟨events, hpublishes, -⟩ := Engine.write_goesOn config w.engine id offset data
    exact Store.keepsRows_of_eq (congrArg Store.rows hpublishes.store)
  | terminate id =>
    obtain ⟨events, hpublishes, -⟩ := Engine.terminate_goesOn w.engine id
    exact Store.keepsRows_of_eq (congrArg Store.rows hpublishes.store)
  | read id =>
    exact Store.keepsRows_of_eq (congrArg (fun e => e.store.rows) (Engine.read_engine w.engine id))
  | closeStore =>
    rcases ha with hdurable | hne
    · exact (Store.keeps_close w.engine.store).rows hdurable
    · exact absurd rfl hne
  | recordAddress id ip =>
    simp only [step]
    cases hwrite : w.engine.store.setUploaderIp id ip with
    | error failure => exact Store.keepsRows_of_eq rfl
    | ok store => exact Store.keepsRows_setUploaderIp hwrite
  | _ => exact Store.keepsRows_of_eq rfl

theorem keepsRows_run (w : Workload) (actions : List Action)
    (hrows : w.engine.store.isDurable = true ∨ .closeStore ∉ actions) :
    w.engine.store.KeepsRows (w.run config actions).engine.store := by
  induction actions generalizing w with
  | nil => exact Store.keepsRows_of_eq rfl
  | cons a actions ih =>
    have hfirst : w.engine.store.isDurable = true ∨ a ≠ .closeStore :=
      hrows.imp_right fun hclose heq => hclose (heq ▸ List.mem_cons_self)
    have hrest : (w.step config a).engine.store.isDurable = true ∨ .closeStore ∉ actions := by
      rw [(follows_step config w a).store.isDurable]
      exact hrows.imp_right fun hclose hmem => hclose (List.mem_cons_of_mem _ hmem)
    exact (keepsRows_step hfirst).trans (ih (w.step config a) hrest)

def HasRows (w : Workload) : Prop :=
  ∀ info, info ∈ w.suspended ∨ w.engine.uploads.get? info.id = some info →
    w.engine.store.Records info.id info.size

theorem HasRows.of_effect (h : w.HasRows) (hsound : w.IsSound config)
    (hkeeps : w.engine.store.KeepsRows w'.engine.store) (heffect : w.Effect config w' a) : w'.HasRows := by
  intro info hinfo
  cases heffect with
  | idle _ hmemory hsuspended _ =>
    have huploads : w'.engine.uploads = w.engine.uploads := congrArg Memory.uploads hmemory
    rw [huploads, hsuspended] at hinfo
    exact hkeeps.records (h info hinfo)
  | enrolled added _ _ _ _ _ hrow hmemory _ hsuspended _ =>
    have huploads : w'.engine.uploads = w.engine.uploads := congrArg Memory.uploads hmemory
    rw [huploads, hsuspended, List.mem_append] at hinfo
    rcases hinfo with (hold | hnew) | hget
    · exact hkeeps.records (h info (Or.inl hold))
    · obtain rfl := List.mem_singleton.mp hnew
      exact hrow
    · exact hkeeps.records (h info (Or.inr hget))
  | registered i added hi hmemory hsuspended _ =>
    apply hkeeps.records
    rcases hinfo with hmem | hget
    · rw [hsuspended] at hmem
      exact h info (Or.inl ((List.eraseIdx_sublist _ _).subset hmem))
    · have hafter : w'.engine.memory.uploads.get? info.id = some info := hget
      rw [hmemory] at hafter
      rcases Memory.get?_of_put_advance hafter with ⟨-, rfl⟩ | ⟨-, hbefore⟩
      · exact h info (Or.inl (List.mem_of_getElem? hi))
      · exact h info (Or.inr hbefore)
  | written owner offset data before hbefore _ _ hmemory hsuspended _ =>
    obtain rfl := hsound.id_eq hbefore
    apply hkeeps.records
    rcases hinfo with hmem | hget
    · exact h info (Or.inl (hsuspended ▸ hmem))
    · have hafter : w'.engine.memory.uploads.get? info.id = some info := hget
      rw [hmemory] at hafter
      rcases Memory.get?_of_put_advance hafter with ⟨-, rfl⟩ | ⟨-, hother⟩
      · exact h before (Or.inr hbefore)
      · exact h info (Or.inr hother)
  | terminated owner _ _ hmemory hsuspended _ =>
    have huploads : w'.engine.uploads = w.engine.uploads.erase owner := congrArg Memory.uploads hmemory
    apply hkeeps.records
    rcases hinfo with hmem | hget
    · exact h info (Or.inl (hsuspended ▸ hmem))
    · rw [huploads, OrderedMap.get?_erase] at hget
      split at hget
      · cases hget
      · exact h info (Or.inr hget)

theorem hasRows_run (config : Config) (store : Store) (broadcaster : Broadcaster) (telemetry : Telemetry)
    (actions : List Action)
    (hdistinct : ((start store broadcaster telemetry).run config actions).drawn.Nodup)
    (hrows : store.isDurable = true ∨ .closeStore ∉ actions) :
    ((start store broadcaster telemetry).run config actions).HasRows := by
  induction actions using List.reverseRecOn with
  | nil =>
    intro info hinfo
    rcases hinfo with hmem | hget
    · cases hmem
    · cases hget
  | append_singleton actions a ih =>
    rw [run_concat] at hdistinct ⊢
    have hfollows := follows_step config ((start store broadcaster telemetry).run config actions) a
    have hbefore := hdistinct.sublist hfollows.drawn.sublist
    have hdurable := (follows_run config (start store broadcaster telemetry) actions).store.isDurable
    have hearly : store.isDurable = true ∨ .closeStore ∉ actions :=
      hrows.imp_right fun hclose hmem => hclose (List.mem_append_left _ hmem)
    have hlast : ((start store broadcaster telemetry).run config actions).engine.store.isDurable = true
        ∨ a ≠ .closeStore := by
      rw [hdurable]
      exact hrows.imp_right fun hclose heq => hclose (heq ▸ List.mem_append_right _ List.mem_cons_self)
    exact (ih hbefore hearly).of_effect (isSound_run config store broadcaster telemetry actions hbefore)
      (keepsRows_step hlast) (effect_step config _ a)

/-! ### The law of retention -/

/-- **Which uploads stay in memory.**  Along every run whose ids are distinct and whose
    broadcaster is open, the uploads in memory that are complete are those that are listed
    as complete, in the order in which they became so.  An upload leaves memory only where
    it is ended or where it is pushed out: it is complete then, and as many uploads that
    became complete after it are in memory as are to be kept.  All uploads that are
    complete and in memory later have become so after it.  A store that keeps its rows
    keeps the row of an upload that has left. -/
theorem retention_of_run (config : Config) (store : Store) (broadcaster : Broadcaster) (telemetry : Telemetry)
    (hretained : 0 ≤ config.retainedUploads) (actions : List Action)
    (hdistinct : ((start store broadcaster telemetry).run config actions).drawn.Nodup)
    (hopen : ((start store broadcaster telemetry).run config actions).engine.broadcaster.isClosed = false) :
    let state := fun actions => (start store broadcaster telemetry).run config actions
    (∀ id, id ∈ (state actions).engine.completed
        ↔ ∃ info, (state actions).engine.uploads.get? id = some info ∧ info.offset = info.size)
      ∧ (state actions).engine.completed.Sublist (state actions).completions
      ∧ (state actions).completions.Nodup
      ∧ ∀ early a late info, actions = early ++ a :: late → Leaves config (state early) a info →
        (a = .terminate info.id
          ∨ Evicts config (state early) (state (early ++ [a])) info.id
            ∧ ∀ other ∈ (state actions).engine.completed, (state actions).CompletedBefore info.id other)
        ∧ (store.isDurable = true ∨ .closeStore ∉ actions →
          (state actions).engine.store.Records info.id info.size) := by
  intro state
  have hsound := fun actions => isSound_run config store broadcaster telemetry actions
  have hrunning : (state actions).IsRunning config := ⟨hsound actions hdistinct, hdistinct, hopen⟩
  have hretains := retains_run config store broadcaster telemetry hretained
  refine ⟨?_, (hretains actions hrunning).order, (hretains actions hrunning).distinct, ?_⟩
  · intro id
    constructor
    · exact hrunning.sound.memory.complete id
    · rintro ⟨info, hget, hall⟩
      exact (hretains actions hrunning).listed id info hget hall
  · rintro early a late info rfl hleaves
    have hlast : state (early ++ a :: late) = (state (early ++ [a])).run config late := by
      rw [show early ++ a :: late = early ++ [a] ++ late by simp]
      exact run_append config _ _ _
    have hafter : state (early ++ [a]) = (state early).step config a := run_concat config _ _ _
    have hlate : (state (early ++ [a])).Follows (state (early ++ a :: late)) := by
      rw [hlast]
      exact follows_run config _ late
    have hstep : (state early).Follows (state (early ++ [a])) := by
      rw [hafter]
      exact follows_step config _ a
    have hthen := hrunning.of_follows hlate (hsound _ (hdistinct.sublist hlate.drawn.sublist))
    have hnow := hthen.of_follows hstep (hsound _ (hthen.distinct.sublist hstep.drawn.sublist))
    constructor
    · have htells := tells_run config store broadcaster telemetry (early ++ [a]) hthen.distinct
      have hcases : a = .terminate info.id
          ∨ Evicts config (state early) (state (early ++ [a])) info.id := by
        have hretains' := hretains (early ++ [a]) hthen
        have hthen' := hthen
        rw [show (start store broadcaster telemetry).run config (early ++ [a])
          = (state early).step config a from hafter] at htells hretains'
        rw [hafter] at hthen' ⊢
        exact leaves_cases hnow hthen' hretained (hretains early hnow) hretains'
          (fun ev hev hkind => htells.offset_of_completed hev hkind) hleaves
      refine hcases.imp_right ?_
      intro hevicts
      refine ⟨hevicts, ?_⟩
      obtain ⟨ev, hev, hkind, hid, -⟩ := hevicts.complete
      rw [hlast]
      apply completedBefore_run hthen.sound hretained (mem_completions_iff.mpr ⟨ev, hev, hkind, hid⟩) ?_ late
        (hlast ▸ hrunning)
      intro other hother
      exact ((hevicts.later other).mp hother).2
    · intro hrows
      have hdurable := (follows_run config (start store broadcaster telemetry) early).store.isDurable
      have hclosed : store.isDurable = true ∨ .closeStore ∉ early :=
        hrows.imp_right fun hclose hmem => hclose (List.mem_append_left _ hmem)
      have hkeeps : (state early).engine.store.KeepsRows (state (early ++ a :: late)).engine.store := by
        rw [show state (early ++ a :: late) = (state early).run config (a :: late) from run_append config _ _ _]
        apply keepsRows_run
        rw [hdurable]
        exact hrows.imp_right fun hclose hmem => hclose (List.mem_append_right _ hmem)
      apply hkeeps.records
      apply hasRows_run config store broadcaster telemetry early hnow.distinct hclosed info
      rcases hleaves.1 with hget | ⟨i, -, hi⟩
      · exact Or.inr hget
      · exact Or.inl (List.mem_of_getElem? hi)

/-- An upload becomes complete, one without octets pushes it out, and a third one is created. -/
def pushedOut : List Action :=
  [.connectStore, .enroll (Text.of "a") none 1 { year := 2024, month := 1, day := 1 },
    .enroll (Text.of "b") none 0 { year := 2024, month := 1, day := 1 },
    .enroll (Text.of "c") none 1 { year := 2024, month := 1, day := 1 },
    .register 0, .write (Text.of "a") 0 [120], .register 0, .register 0]

theorem retention_of_run_pushedOut :
    (plainStart.run { retainedUploads := 1 } pushedOut).engine.completed = [Text.of "b"]
      ∧ Evicts { retainedUploads := 1 } (plainStart.run { retainedUploads := 1 } pushedOut)
        (plainStart.run { retainedUploads := 1 } (pushedOut ++ [.write (Text.of "c") 0 [121]])) (Text.of "b")
      ∧ (plainStart.run { retainedUploads := 1 }
        (pushedOut ++ [.write (Text.of "c") 0 [121]])).engine.store.Records (Text.of "b") 0 := by
  have hcompleted : (plainStart.run { retainedUploads := 1 } pushedOut).engine.completed = [Text.of "b"] := by
    decide +kernel
  have hrun : (plainStart.run { retainedUploads := 1 } (pushedOut ++ [.write (Text.of "c") 0 [121]])).drawn.Nodup
      ∧ (plainStart.run { retainedUploads := 1 }
        (pushedOut ++ [.write (Text.of "c") 0 [121]])).engine.broadcaster.isClosed = false := by decide +kernel
  have hleaves : Leaves { retainedUploads := 1 } (plainStart.run { retainedUploads := 1 } pushedOut)
      (.write (Text.of "c") 0 [121]) ⟨Text.of "b", 0, 0, []⟩ := by
    constructor
    · exact Or.inl (by decide +kernel)
    · decide +kernel
  obtain ⟨-, -, -, hlaw⟩ := retention_of_run { retainedUploads := 1 } _ _ _ (by decide) _ hrun.1 hrun.2
  obtain ⟨hcases, hrows⟩ := hlaw pushedOut _ [] _ rfl hleaves
  refine ⟨hcompleted, ?_, hrows (Or.inl rfl)⟩
  rcases hcases with hended | ⟨hevicts, -⟩
  · cases hended
  · exact hevicts

end Workload

end UploadGate

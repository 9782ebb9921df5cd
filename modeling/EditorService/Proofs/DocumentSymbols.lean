import EditorService.Feature.Symbols
import EditorService.Proofs.FeatureJobs
import Mathlib.Data.List.Nodup

/-!
# The outline shows each definition once

The outline is made by a walk through the definitions that the engine lists. A class that is shown announces the places of
its members, and these are walked through right after it; the members are listed too, and at an announced place only the
first definition is shown. So the walk tells definitions apart by their places, and members that share a place, such as
the two names of `a, b = 1, 2`, are taken for one.

**The law** (`symbols_complete_iff_unshared`): in a list in which classes come before their members, no definition is shown
twice, and all are shown exactly if no two that come behind a class are at one place that it announces (`Unshared`).
-/

namespace EditorService.Feature

open EditorService.Tool (Definition Extent)

variable {r : OutlineRules}

/-! ## Classes and their members -/

/-- The members of a class. -/
def inner (d : Definition) : List Definition :=
  if d.kind == "class" then
    match d.members with
    | .ok members => members
    | .error _ => []
  else []

theorem weights_inner (d : Definition) : weights (inner d) < weight d := by
  have hpos := weight_pos d
  unfold inner
  split
  · split
    · next hmembers => exact weights_members hmembers
    · exact hpos
  · exact hpos

theorem weight_le_weights {d : Definition} {ds : List Definition} (h : d ∈ ds) : weight d ≤ weights ds := by
  induction ds with
  | nil => exact nomatch h
  | cons e ds ih =>
    rw [weights]
    rcases List.mem_cons.mp h with rfl | h
    · exact Nat.le_add_right _ _
    · exact Nat.le_trans (ih h) (Nat.le_add_left _ _)

theorem weight_lt_of_mem_inner {d m : Definition} (h : m ∈ inner d) : weight m < weight d :=
  Nat.lt_of_le_of_lt (weight_le_weights h) (weights_inner d)

mutual

/-- **The places that a class announces**, itself and through the classes among its members. -/
def announcedBy (r : OutlineRules) : Definition → List Extent
  | d@{ members, .. } => if r.accepts d && d.kind == "class" then announcedIn r members else []

/-- The places that what a class says of its members announces. -/
def announcedIn (r : OutlineRules) : Except Fault (List Definition) → List Extent
  | .ok members => announcedAmong r members
  | .error _ => []

/-- The places of members, and those that they announce. -/
def announcedAmong (r : OutlineRules) : List Definition → List Extent
  | [] => []
  | m :: rest => m.extent :: (announcedBy r m ++ announcedAmong r rest)

end

theorem announcedBy_eq (d : Definition) :
    announcedBy r d = if r.accepts d && d.kind == "class" then announcedIn r d.members else [] := by
  cases d
  rfl

theorem mem_announcedAmong {x : Extent} {ms : List Definition} :
    x ∈ announcedAmong r ms ↔ ∃ m ∈ ms, x = m.extent ∨ x ∈ announcedBy r m := by
  induction ms with
  | nil => simp [announcedAmong]
  | cons m ms ih => simp [announcedAmong, ih, or_assoc]

theorem mem_announcedBy {x : Extent} {d : Definition} :
    x ∈ announcedBy r d ↔ r.accepts d = true ∧ ∃ m ∈ inner d, x = m.extent ∨ x ∈ announcedBy r m := by
  rw [announcedBy_eq, inner]
  by_cases hclass : (d.kind == "class") = true
  · by_cases haccepts : r.accepts d = true
    · rw [haccepts, hclass]
      cases d.members with
      | ok members => simp [announcedIn, mem_announcedAmong]
      | error f => simp [announcedIn]
    · simp [haccepts]
  · simp [hclass]

/-- **Classes come before their members**, and their members are listed. -/
def Orderly : List Definition → Prop
  | [] => True
  | d :: rest => inner d ⊆ rest ∧ Orderly rest

theorem Orderly.inner_subset {ds : List Definition} (h : Orderly ds) {d : Definition} (hd : d ∈ ds) : inner d ⊆ ds := by
  induction ds with
  | nil => exact nomatch hd
  | cons e ds ih =>
    rcases List.mem_cons.mp hd with rfl | hd
    · exact fun m hm => List.mem_cons_of_mem _ (h.1 hm)
    · exact fun m hm => List.mem_cons_of_mem _ (ih h.2 hd hm)

/-- **No place that a class announces is shared**: behind it, definitions at one such place have one name. -/
def Unshared (r : OutlineRules) : List Definition → Prop
  | [] => True
  | d :: rest =>
    (∀ e ∈ rest, ∀ e' ∈ rest, r.accepts e = true → r.accepts e' = true → e.extent = e'.extent →
      e.extent ∈ announcedBy r d → e.name = e'.name) ∧ Unshared r rest

instance decidableUnshared (r : OutlineRules) : (ds : List Definition) → Decidable (Unshared r ds)
  | [] => isTrue trivial
  | d :: rest =>
    have := decidableUnshared r rest
    inferInstanceAs (Decidable ((∀ e ∈ rest, ∀ e' ∈ rest, r.accepts e = true → r.accepts e' = true →
      e.extent = e'.extent → e.extent ∈ announcedBy r d → e.name = e'.name) ∧ Unshared r rest))

/-- **What tells definitions apart**: a name and a place. -/
def key (d : Definition) : String × Extent := (d.name, d.extent)

theorem eq_of_key {ds : List Definition} (h : (ds.map key).Nodup) {d e : Definition} (hd : d ∈ ds) (he : e ∈ ds)
    (hkey : key d = key e) : d = e := List.inj_on_of_nodup_map h hd he hkey

/-! ## The tour -/

/-- What a walk through definitions has come to: the definitions that were shown, the places that are done, and those that
were announced. -/
structure Tour where
  shown : List Definition := []
  done : List Extent := []
  announced : List Extent := []

/-- Shows a definition, and announces the places of its members. -/
def Tour.enter (s : Tour) (d : Definition) : Tour where
  shown := s.shown ++ [d]
  done := if d.extent ∈ s.announced then d.extent :: s.done else s.done
  announced := (inner d).map (·.extent) ++ s.announced

/-- **The walk, as far as it tells what is shown.** -/
def tour (r : OutlineRules) (s : Tour) (ds : List Definition) : Tour :=
  match ds with
  | [] => s
  | d :: rest =>
    if r.accepts d = true ∧ d.extent ∉ s.done then tour r (tour r (s.enter d) (inner d)) rest else tour r s rest
termination_by weights ds
decreasing_by
  all_goals simp only [weights]
  · have := weights_inner d
    omega
  · have := weight_pos d
    omega
  · have := weight_pos d
    omega

theorem tour_append (s : Tour) (as bs : List Definition) : tour r s (as ++ bs) = tour r (tour r s as) bs := by
  induction as generalizing s with
  | nil => rw [List.nil_append, tour]
  | cons a as ih =>
    rw [List.cons_append, tour, tour]
    split
    · exact ih _
    · exact ih s

/-- What is announced on the way through the members of a class was announced before, or by the class. -/
theorem announced_enter {s : Tour} {d : Definition} (haccepts : r.accepts d = true) {x : Extent}
    (h : x ∈ (s.enter d).announced ∨ ∃ m ∈ inner d, x ∈ announcedBy r m) : x ∈ s.announced ∨ x ∈ announcedBy r d := by
  rcases h with hentered | ⟨m, hm, hbelow⟩
  · rcases List.mem_append.mp hentered with hx | hold
    · obtain ⟨m, hm, rfl⟩ := List.mem_map.mp hx
      exact .inr (mem_announcedBy.mpr ⟨haccepts, m, hm, .inl rfl⟩)
    · exact .inl hold
  · exact .inr (mem_announcedBy.mpr ⟨haccepts, m, hm, .inr hbelow⟩)

/-! ## Through the members of a class -/

/-- **A tour has explored members**: `new` are the definitions that it showed on the way from `s` to `t`, all from the list
`ds`, at places of their own that are done now, and with their members explored. -/
structure Explored (r : OutlineRules) (ds : List Definition) (s t : Tour) (new : List Definition) : Prop where
  shown : t.shown = s.shown ++ new
  done : ∀ x, x ∈ t.done ↔ x ∈ s.done ∨ ∃ n ∈ new, n.extent = x
  fresh : ∀ n ∈ new, n.extent ∉ s.done
  listed : ∀ n ∈ new, n ∈ ds ∧ r.accepts n = true
  apart : (new.map (·.extent)).Nodup
  announced : s.announced ⊆ t.announced
  told : ∀ n ∈ new, n.extent ∈ t.announced
  closed : ∀ n ∈ new, ∀ m ∈ inner n, m.extent ∈ t.announced ∧ (r.accepts m = true → m.extent ∈ t.done)

namespace Explored

variable {ds new more : List Definition} {s t u : Tour}

protected theorem rest (r : OutlineRules) (ds : List Definition) (s : Tour) : Explored r ds s s [] where
  shown := (List.append_nil _).symm
  done := by simp
  fresh := nofun
  listed := nofun
  apart := List.nodup_nil
  announced := List.Subset.refl _
  told := nofun
  closed := nofun

theorem mem_done (h : Explored r ds s t new) {x : Extent} (hx : x ∈ s.done) : x ∈ t.done := (h.done x).mpr (.inl hx)

/-- One exploration after another. -/
protected theorem trans (h : Explored r ds s t new) (h' : Explored r ds t u more) : Explored r ds s u (new ++ more) where
  shown := by rw [h'.shown, h.shown, List.append_assoc]
  done := by
    intro x
    rw [h'.done, h.done, or_assoc]
    simp only [List.mem_append, or_and_right, exists_or]
  fresh := by
    intro n hn
    rcases List.mem_append.mp hn with hn | hn
    · exact h.fresh n hn
    · exact fun hx => h'.fresh n hn (h.mem_done hx)
  listed := fun n hn => (List.mem_append.mp hn).elim (h.listed n) (h'.listed n)
  apart := by
    rw [List.map_append]
    refine List.Nodup.append h.apart h'.apart ?_
    intro x hx hx'
    obtain ⟨n, hn, rfl⟩ := List.mem_map.mp hx
    obtain ⟨m, hm, heq⟩ := List.mem_map.mp hx'
    exact h'.fresh m hm ((h.done _).mpr (.inr ⟨n, hn, heq.symm⟩))
  announced := List.Subset.trans h.announced h'.announced
  told := by
    intro n hn
    rcases List.mem_append.mp hn with hn | hn
    · exact h'.announced (h.told n hn)
    · exact h'.told n hn
  closed := by
    intro n hn m hm
    rcases List.mem_append.mp hn with hn | hn
    · obtain ⟨htold, hdone⟩ := h.closed n hn m hm
      exact ⟨h'.announced htold, fun haccepts => h'.mem_done (hdone haccepts)⟩
    · exact h'.closed n hn m hm

/-- A definition at an announced place is shown, and then its members are explored. -/
theorem enter {d : Definition} (hd : d ∈ ds) (haccepts : r.accepts d = true) (hnew : d.extent ∉ s.done)
    (htold : d.extent ∈ s.announced) (h : Explored r ds (s.enter d) t new)
    (hmembers : ∀ m ∈ inner d, r.accepts m = true → m.extent ∈ t.done) : Explored r ds s t (d :: new) := by
  have hdone : (s.enter d).done = d.extent :: s.done := if_pos htold
  have hannounced : ∀ x ∈ s.announced, x ∈ t.announced := fun x hx => h.announced (List.mem_append_right _ hx)
  refine ⟨?_, ?_, ?_, ?_, ?_, hannounced, ?_, ?_⟩
  · rw [h.shown, Tour.enter, List.append_assoc, List.singleton_append]
  · intro x
    rw [h.done, hdone]
    simp only [List.mem_cons, exists_eq_or_imp]
    rw [eq_comm, or_assoc, or_left_comm]
  · intro n hn hx
    rcases List.mem_cons.mp hn with rfl | hn
    · exact hnew hx
    · exact h.fresh n hn (hdone ▸ List.mem_cons_of_mem _ hx)
  · intro n hn
    rcases List.mem_cons.mp hn with rfl | hn
    · exact ⟨hd, haccepts⟩
    · exact h.listed n hn
  · rw [List.map_cons, List.nodup_cons]
    refine ⟨fun hmem => ?_, h.apart⟩
    obtain ⟨n, hn, heq⟩ := List.mem_map.mp hmem
    refine h.fresh n hn ?_
    rw [hdone, heq]
    exact List.mem_cons_self
  · intro n hn
    rcases List.mem_cons.mp hn with rfl | hn
    · exact hannounced _ htold
    · exact h.told n hn
  · intro n hn m hm
    rcases List.mem_cons.mp hn with rfl | hn
    · exact ⟨h.announced (List.mem_append_left _ (List.mem_map_of_mem hm)), hmembers m hm⟩
    · exact h.closed n hn m hm

end Explored

/-- **Members are explored**, where their places are announced: those that can be shown have their places done, and only
places that they announce themselves are announced on the way. -/
theorem explored_tour {ds : List Definition} (horderly : Orderly ds) (s : Tour) (ms : List Definition)
    (hms : ms ⊆ ds) (htold : ∀ m ∈ ms, m.extent ∈ s.announced) :
    ∃ new, Explored r ds s (tour r s ms) new ∧ (∀ m ∈ ms, r.accepts m = true → m.extent ∈ (tour r s ms).done) ∧
      ∀ x ∈ (tour r s ms).announced, x ∈ s.announced ∨ ∃ m ∈ ms, x ∈ announcedBy r m := by
  fun_induction tour r s ms with
  | case1 s => exact ⟨[], Explored.rest r ds s, nofun, fun x hx => .inl hx⟩
  | case2 s d rest hfree ihinner ihrest =>
    obtain ⟨haccepts, hnew⟩ := hfree
    have hd : d ∈ ds := hms List.mem_cons_self
    obtain ⟨first, hfirst, hinner, hinnerTold⟩ := ihinner (horderly.inner_subset hd) fun m hm =>
      List.mem_append_left _ (List.mem_map_of_mem hm)
    have hentered := hfirst.enter hd haccepts hnew (htold d List.mem_cons_self) hinner
    obtain ⟨second, hsecond, hrest, hrestTold⟩ := ihrest (fun m hm => hms (List.mem_cons_of_mem d hm)) fun m hm =>
      hentered.announced (htold m (List.mem_cons_of_mem d hm))
    refine ⟨d :: first ++ second, hentered.trans hsecond, ?_, ?_⟩
    · intro m hm hm'
      rcases List.mem_cons.mp hm with rfl | hm
      · exact hsecond.mem_done ((hentered.done _).mpr (.inr ⟨m, List.mem_cons_self, rfl⟩))
      · exact hrest m hm hm'
    · intro x hx
      rcases hrestTold x hx with hx | ⟨m, hm, hx⟩
      · rcases announced_enter haccepts (hinnerTold x hx) with hold | hbelow
        · exact .inl hold
        · exact .inr ⟨d, List.mem_cons_self, hbelow⟩
      · exact .inr ⟨m, List.mem_cons_of_mem d hm, hx⟩
  | case3 s d rest hblocked ih =>
    obtain ⟨new, hnew, hdone, hannounced⟩ := ih (fun m hm => hms (List.mem_cons_of_mem d hm)) fun m hm =>
      htold m (List.mem_cons_of_mem d hm)
    refine ⟨new, hnew, ?_, ?_⟩
    · intro m hm hm'
      rcases List.mem_cons.mp hm with rfl | hm
      · refine hnew.mem_done (Classical.byContradiction fun hno => hblocked ⟨hm', hno⟩)
      · exact hdone m hm hm'
    · intro x hx
      rcases hannounced x hx with hx | ⟨m, hm, hx⟩
      · exact .inl hx
      · exact .inr ⟨m, List.mem_cons_of_mem d hm, hx⟩

/-! ## Through the list -/

/-- **What holds of a tour with the definitions `ds` still to come.** Those of them that were shown were shown as members:
their places are done, no two of them are at one place, and their own members are explored. -/
structure Steady (r : OutlineRules) (ds : List Definition) (s : Tour) : Prop where
  marked : ∀ d ∈ ds, d ∈ s.shown → d.extent ∈ s.done
  alone : ∀ d ∈ ds, ∀ e ∈ ds, d ∈ s.shown → e ∈ s.shown → d.extent = e.extent → d = e
  closed : ∀ d ∈ ds, d ∈ s.shown → ∀ m ∈ inner d, m.extent ∈ s.announced ∧ (r.accepts m = true → m.extent ∈ s.done)
  told : s.done ⊆ s.announced
  once : s.shown.Nodup

theorem steady_start (r : OutlineRules) (ds : List Definition) : Steady r ds {} :=
  ⟨nofun, nofun, nofun, nofun, List.nodup_nil⟩

theorem Steady.skip {d : Definition} {ds : List Definition} {s : Tour} (h : Steady r (d :: ds) s) : Steady r ds s where
  marked e he := h.marked e (List.mem_cons_of_mem d he)
  alone e he f hf := h.alone e (List.mem_cons_of_mem d he) f (List.mem_cons_of_mem d hf)
  closed e he := h.closed e (List.mem_cons_of_mem d he)
  told := h.told
  once := h.once

/-- **A definition is shown, with its members.** `new` are the members that are shown on the way. -/
structure Shown (r : OutlineRules) (d : Definition) (ds : List Definition) (s t : Tour) (new : List Definition) : Prop where
  explored : Explored r ds (s.enter d) t new
  members : ∀ m ∈ inner d, m.extent ∈ t.announced ∧ (r.accepts m = true → m.extent ∈ t.done)
  told : ∀ x ∈ t.announced, x ∈ s.announced ∨ x ∈ announcedBy r d

theorem shown_tour {d : Definition} {ds : List Definition} (horderly : Orderly (d :: ds)) (haccepts : r.accepts d = true)
    (s : Tour) : ∃ new, Shown r d ds s (tour r (s.enter d) (inner d)) new := by
  obtain ⟨new, hnew, hdone, htold⟩ := explored_tour (r := r) horderly.2 (s.enter d) (inner d) horderly.1 fun m hm =>
    List.mem_append_left _ (List.mem_map_of_mem hm)
  refine ⟨new, hnew, fun m hm => ⟨?_, hdone m hm⟩, fun x hx => announced_enter haccepts (htold x hx)⟩
  exact hnew.announced (List.mem_append_left _ (List.mem_map_of_mem hm))

namespace Shown

variable {d : Definition} {ds new : List Definition} {s t : Tour}

theorem mem_shown (h : Shown r d ds s t new) {e : Definition} : e ∈ t.shown ↔ e ∈ s.shown ∨ e = d ∨ e ∈ new := by
  rw [h.explored.shown, Tour.enter, List.mem_append, List.mem_append, List.mem_singleton, or_assoc]

theorem mem_done (h : Shown r d ds s t new) {x : Extent} :
    x ∈ t.done ↔ x ∈ s.done ∨ (x = d.extent ∧ x ∈ s.announced) ∨ ∃ n ∈ new, n.extent = x := by
  rw [h.explored.done, Tour.enter, ← or_assoc]
  refine or_congr_left ?_
  split
  · next htold =>
    rw [List.mem_cons]
    constructor
    · rintro (rfl | hx)
      · exact .inr ⟨rfl, htold⟩
      · exact .inl hx
    · rintro (hx | ⟨rfl, -⟩)
      · exact .inr hx
      · exact .inl rfl
  · next hno =>
    refine ⟨.inl, ?_⟩
    rintro (hx | ⟨rfl, hx⟩)
    · exact hx
    · exact absurd hx hno

theorem fresh (h : Shown r d ds s t new) {n : Definition} (hn : n ∈ new) : n.extent ∉ s.done := by
  intro hx
  refine h.explored.fresh n hn ?_
  rw [Tour.enter]
  split
  · exact List.mem_cons_of_mem _ hx
  · exact hx

theorem announced (h : Shown r d ds s t new) : s.announced ⊆ t.announced := by
  intro x hx
  exact h.explored.announced (List.mem_append_right _ hx)

/-- The tour is steady again, with one definition less to come. -/
theorem steady (h : Shown r d ds s t new) (hs : Steady r (d :: ds) s) (hd : d ∉ ds) (hnew : d.extent ∉ s.done) :
    Steady r ds t := by
  have hcases : ∀ {e}, e ∈ ds → e ∈ t.shown → e ∈ s.shown ∨ e ∈ new := by
    intro e he hshown
    rcases h.mem_shown.mp hshown with hold | rfl | hn
    · exact .inl hold
    · exact absurd he hd
    · exact .inr hn
  refine ⟨?_, ?_, ?_, ?_, ?_⟩
  · intro e he hshown
    rcases hcases he hshown with hold | hn
    · exact h.mem_done.mpr (.inl (hs.marked e (List.mem_cons_of_mem d he) hold))
    · exact h.mem_done.mpr (.inr (.inr ⟨e, hn, rfl⟩))
  · intro e he f hf hshown hshown' heq
    rcases hcases he hshown with hold | hn
    · have hmarked := hs.marked e (List.mem_cons_of_mem d he) hold
      rcases hcases hf hshown' with hold' | hn'
      · exact hs.alone e (List.mem_cons_of_mem d he) f (List.mem_cons_of_mem d hf) hold hold' heq
      · exact absurd (heq ▸ hmarked) (h.fresh hn')
    · rcases hcases hf hshown' with hold' | hn'
      · exact absurd (heq ▸ hs.marked f (List.mem_cons_of_mem d hf) hold') (h.fresh hn)
      · exact List.inj_on_of_nodup_map h.explored.apart hn hn' heq
  · intro e he hshown m hm
    rcases hcases he hshown with hold | hn
    · obtain ⟨htold, hdone⟩ := hs.closed e (List.mem_cons_of_mem d he) hold m hm
      exact ⟨h.announced htold, fun haccepts => h.mem_done.mpr (.inl (hdone haccepts))⟩
    · exact h.explored.closed e hn m hm
  · intro x hx
    rcases h.mem_done.mp hx with hold | ⟨-, hold⟩ | ⟨n, hn, rfl⟩
    · exact h.announced (hs.told hold)
    · exact h.announced hold
    · exact h.explored.told n hn
  · rw [h.explored.shown, Tour.enter, List.append_assoc]
    have hnodup : new.Nodup := List.Nodup.of_map _ h.explored.apart
    refine hs.once.append (List.nodup_cons.mpr ⟨fun hmem => hd (h.explored.listed d hmem).1, hnodup⟩) ?_
    intro e hold hadded
    rcases List.mem_cons.mp hadded with rfl | hn
    · exact hnew (hs.marked e List.mem_cons_self hold)
    · exact h.fresh hn (hs.marked e (List.mem_cons_of_mem d (h.explored.listed e hn).1) hold)

end Shown

theorem tour_of_free {s : Tour} {d : Definition} (haccepts : r.accepts d = true) (hnew : d.extent ∉ s.done)
    (ds : List Definition) : tour r s (d :: ds) = tour r (tour r (s.enter d) (inner d)) ds := by
  rw [tour, if_pos ⟨haccepts, hnew⟩]

theorem tour_of_blocked {s : Tour} {d : Definition} (h : ¬ (r.accepts d = true ∧ d.extent ∉ s.done))
    (ds : List Definition) : tour r s (d :: ds) = tour r s ds := by
  rw [tour, if_neg h]

/-- **A tour through a list shows nothing twice**, and nothing but accepted definitions of the list, at places that were
not done. -/
theorem tour_sound {ds : List Definition} {s : Tour} (horderly : Orderly ds) (hnodup : ds.Nodup) (hs : Steady r ds s) :
    s.shown ⊆ (tour r s ds).shown ∧ (tour r s ds).shown.Nodup ∧
      ∀ e ∈ (tour r s ds).shown, e ∈ s.shown ∨ e ∈ ds ∧ r.accepts e = true ∧ e.extent ∉ s.done := by
  induction ds generalizing s with
  | nil =>
    rw [tour]
    exact ⟨List.Subset.refl _, hs.once, fun e he => .inl he⟩
  | cons d ds ih =>
    by_cases hfree : r.accepts d = true ∧ d.extent ∉ s.done
    · obtain ⟨haccepts, hnew⟩ := hfree
      obtain ⟨new, hshown⟩ := shown_tour horderly haccepts s
      have hsteady := hshown.steady hs (List.nodup_cons.mp hnodup).1 hnew
      rw [tour_of_free haccepts hnew]
      obtain ⟨hkept, honce, honly⟩ := ih horderly.2 (List.nodup_cons.mp hnodup).2 hsteady
      refine ⟨fun e he => hkept (hshown.mem_shown.mpr (.inl he)), honce, fun e he => ?_⟩
      rcases honly e he with hearlier | ⟨hmem, haccepts', hfresh⟩
      · rcases hshown.mem_shown.mp hearlier with hold | rfl | hn
        · exact .inl hold
        · exact .inr ⟨List.mem_cons_self, haccepts, hnew⟩
        · obtain ⟨hmem, haccepts'⟩ := hshown.explored.listed e hn
          exact .inr ⟨List.mem_cons_of_mem d hmem, haccepts', hshown.fresh hn⟩
      · exact .inr ⟨List.mem_cons_of_mem d hmem, haccepts', fun hx => hfresh (hshown.mem_done.mpr (.inl hx))⟩
    · rw [tour_of_blocked hfree]
      obtain ⟨hkept, honce, honly⟩ := ih horderly.2 (List.nodup_cons.mp hnodup).2 hs.skip
      exact ⟨hkept, honce, fun e he => (honly e he).imp_right fun ⟨hmem, hrest⟩ => ⟨List.mem_cons_of_mem d hmem, hrest⟩⟩

/-! ## What is lost -/

/-- **No two definitions are at one of these places.** -/
def Single (r : OutlineRules) (places : List Extent) (ds : List Definition) : Prop :=
  ∀ d ∈ ds, ∀ e ∈ ds, r.accepts d = true → r.accepts e = true → d.extent = e.extent → d.extent ∈ places → d = e

namespace Single

variable {d : Definition} {ds : List Definition} {places places' : List Extent}

protected theorem mono (h : Single r places ds) (hplaces : places' ⊆ places) : Single r places' ds := by
  intro d hd e he haccepts haccepts' heq hx
  exact h d hd e he haccepts haccepts' heq (hplaces hx)

protected theorem cons (h : Single r places ds)
    (hd : ∀ e ∈ ds, r.accepts d = true → r.accepts e = true → d.extent = e.extent → d.extent ∈ places → d = e) :
    Single r places (d :: ds) := by
  intro e he f hf ha ha' heq hx
  rcases List.mem_cons.mp he with rfl | he'
  · rcases List.mem_cons.mp hf with rfl | hf'
    · rfl
    · exact hd f hf' ha ha' heq hx
  · rcases List.mem_cons.mp hf with rfl | hf'
    · exact (hd e he' ha' ha heq.symm (heq ▸ hx)).symm
    · exact h e he' f hf' ha ha' heq hx

end Single

theorem unshared_cons {d : Definition} {ds : List Definition} (hkeys : (ds.map key).Nodup) :
    Unshared r (d :: ds) ↔ Single r (announcedBy r d) ds ∧ Unshared r ds := by
  refine and_congr_left fun _ => ⟨fun h e he e' he' ha ha' heq hx => ?_, fun h e he e' he' ha ha' heq hx => ?_⟩
  · exact eq_of_key hkeys he he' (Prod.ext (h e he e' he' ha ha' heq hx) heq)
  · rw [h e he e' he' ha ha' heq hx]

/-- **Nothing is lost so far**: a definition to come whose place is done was shown, and no two definitions to come are at
one announced place. -/
structure Unlost (r : OutlineRules) (ds : List Definition) (s : Tour) : Prop where
  kept : ∀ d ∈ ds, r.accepts d = true → d.extent ∈ s.done → d ∈ s.shown
  single : Single r s.announced ds

theorem unlost_start (r : OutlineRules) (ds : List Definition) : Unlost r ds {} := ⟨nofun, nofun⟩

theorem Unlost.skip {d : Definition} {ds : List Definition} {s : Tour} (h : Unlost r (d :: ds) s) : Unlost r ds s where
  kept e he := h.kept e (List.mem_cons_of_mem d he)
  single e he f hf := h.single e (List.mem_cons_of_mem d he) f (List.mem_cons_of_mem d hf)

/-- Where the members of a class are explored, all that it announces is announced, as long as nothing is lost. -/
theorem announcedBy_subset {ds : List Definition} {s : Tour} (hs : Steady r ds s) (horderly : Orderly ds)
    (hkept : ∀ d ∈ ds, r.accepts d = true → d.extent ∈ s.done → d ∈ s.shown) (d : Definition) (hinner : inner d ⊆ ds)
    (hmembers : ∀ m ∈ inner d, m.extent ∈ s.announced ∧ (r.accepts m = true → m.extent ∈ s.done)) :
    announcedBy r d ⊆ s.announced := by
  intro x hx
  obtain ⟨-, m, hm, hcases⟩ := mem_announcedBy.mp hx
  obtain ⟨htold, hdone⟩ := hmembers m hm
  rcases hcases with rfl | hbelow
  · exact htold
  · have haccepts : r.accepts m = true := (mem_announcedBy.mp hbelow).1
    have hlisted : m ∈ ds := hinner hm
    have hshown : m ∈ s.shown := hkept m hlisted haccepts (hdone haccepts)
    exact announcedBy_subset hs horderly hkept m (horderly.inner_subset hlisted) (hs.closed m hlisted hshown) hbelow
termination_by weight d
decreasing_by exact weight_lt_of_mem_inner hm

/-- A definition at a done place is passed over, and nothing is lost by it exactly if it was shown. -/
theorem unlost_cons_of_done {d : Definition} {ds : List Definition} {s : Tour} (hs : Steady r (d :: ds) s)
    (horderly : Orderly (d :: ds)) (hkeys : ((d :: ds).map key).Nodup) (haccepts : r.accepts d = true)
    (hdone : d.extent ∈ s.done) :
    (d ∈ s.shown ∧ Unlost r ds s ∧ Unshared r ds) ↔ Unlost r (d :: ds) s ∧ Unshared r (d :: ds) := by
  rw [List.map_cons, List.nodup_cons] at hkeys
  rw [unshared_cons hkeys.2]
  constructor
  · rintro ⟨hshown, hunlost, hunshared⟩
    have hkept : ∀ e ∈ d :: ds, r.accepts e = true → e.extent ∈ s.done → e ∈ s.shown := by
      intro e he
      rcases List.mem_cons.mp he with rfl | he
      · exact fun _ _ => hshown
      · exact hunlost.kept e he
    have hannounced : announcedBy r d ⊆ s.announced :=
      announcedBy_subset hs horderly hkept d (horderly.inner_subset List.mem_cons_self)
        (hs.closed d List.mem_cons_self hshown)
    refine ⟨⟨hkept, hunlost.single.cons ?_⟩, hunlost.single.mono hannounced, hunshared⟩
    -- A second definition at this place would have been shown too, so it is this one.
    intro e he _ ha heq _
    have he' := List.mem_cons_of_mem d he
    exact hs.alone d List.mem_cons_self e he' hshown (hunlost.kept e he ha (heq ▸ hdone)) heq
  · rintro ⟨hunlost, -, hunshared⟩
    exact ⟨hunlost.kept d List.mem_cons_self haccepts hdone, hunlost.skip, hunshared⟩

/-- A definition at a free place is shown with its members, and nothing is lost by it exactly if no place that is announced
now or before is shared. -/
theorem Shown.unlost_iff {d : Definition} {ds new : List Definition} {s t : Tour} (h : Shown r d ds s t new)
    (hs : Steady r (d :: ds) s) (horderly : Orderly (d :: ds)) (hkeys : ((d :: ds).map key).Nodup)
    (haccepts : r.accepts d = true) (hnew : d.extent ∉ s.done) :
    (Unlost r ds t ∧ Unshared r ds) ↔ Unlost r (d :: ds) s ∧ Unshared r (d :: ds) := by
  rw [List.map_cons, List.nodup_cons] at hkeys
  have hd : d ∉ ds := fun hmem => hkeys.1 (List.mem_map_of_mem hmem)
  rw [unshared_cons hkeys.2]
  constructor
  · rintro ⟨hunlost, hunshared⟩
    have hkept : ∀ e ∈ d :: ds, r.accepts e = true → e.extent ∈ s.done → e ∈ s.shown := by
      intro e he ha hx
      rcases List.mem_cons.mp he with rfl | he'
      · exact absurd hx hnew
      · rcases h.mem_shown.mp (hunlost.kept e he' ha (h.mem_done.mpr (.inl hx))) with hold | rfl | hn
        · exact hold
        · exact absurd he' hd
        · exact absurd hx (h.fresh hn)
    have htold : announcedBy r d ⊆ t.announced :=
      announcedBy_subset (h.steady hs hd hnew) horderly.2 hunlost.kept d horderly.1 h.members
    refine ⟨⟨hkept, (hunlost.single.mono h.announced).cons ?_⟩, hunlost.single.mono htold, hunshared⟩
    -- Where the place was announced it is done now, so a second definition there would not be shown.
    intro e he _ ha heq hx
    have hdone : e.extent ∈ t.done := h.mem_done.mpr (.inr (.inl ⟨heq.symm, heq ▸ hx⟩))
    rcases h.mem_shown.mp (hunlost.kept e he ha hdone) with hold | rfl | hn
    · exact absurd (heq ▸ hs.marked e (List.mem_cons_of_mem d he) hold) hnew
    · rfl
    · refine absurd ?_ (h.explored.fresh e hn)
      rw [Tour.enter, if_pos hx, heq]
      exact List.mem_cons_self
  · rintro ⟨hunlost, hshared, hunshared⟩
    have hsingle : Single r t.announced ds := by
      intro e he f hf ha ha' heq hx
      rcases h.told _ hx with hold | hbelow
      · exact hunlost.skip.single e he f hf ha ha' heq hold
      · exact hshared e he f hf ha ha' heq hbelow
    refine ⟨⟨fun e he ha hx => h.mem_shown.mpr ?_, hsingle⟩, hunshared⟩
    rcases h.mem_done.mp hx with hold | ⟨heq, hold⟩ | ⟨n, hn, heq⟩
    · exact .inl (hunlost.skip.kept e he ha hold)
    · have he' := List.mem_cons_of_mem d he
      exact .inr (.inl (hunlost.single e he' d List.mem_cons_self ha haccepts heq hold))
    · obtain ⟨hlisted, ha'⟩ := h.explored.listed n hn
      rw [← hsingle n hlisted e he ha' ha heq (h.explored.told n hn)]
      exact .inr (.inr hn)

/-- **A tour shows everything that it can** exactly if nothing is lost so far and nothing to come is shared. -/
theorem tour_complete_iff {ds : List Definition} {s : Tour} (horderly : Orderly ds) (hkeys : (ds.map key).Nodup)
    (hs : Steady r ds s) :
    (∀ d ∈ ds, r.accepts d = true → d ∈ (tour r s ds).shown) ↔ Unlost r ds s ∧ Unshared r ds := by
  induction ds generalizing s with
  | nil => exact iff_of_true nofun ⟨⟨nofun, nofun⟩, trivial⟩
  | cons d ds ih =>
    have hrest : (ds.map key).Nodup := (List.nodup_cons.mp hkeys).2
    have hnodup : (d :: ds).Nodup := List.Nodup.of_map key hkeys
    have hd : d ∉ ds := (List.nodup_cons.mp hnodup).1
    rw [List.forall_mem_cons]
    by_cases haccepts : r.accepts d = true
    · by_cases hdone : d.extent ∈ s.done
      · rw [tour_of_blocked fun hfree => hfree.2 hdone, ih horderly.2 hrest hs.skip,
          ← unlost_cons_of_done hs horderly hkeys haccepts hdone]
        refine and_congr_left fun _ => ⟨fun h => ?_, fun h _ => ?_⟩
        · rcases (tour_sound horderly.2 (List.nodup_cons.mp hnodup).2 hs.skip).2.2 d (h haccepts) with hold | ⟨-, -, hno⟩
          · exact hold
          · exact absurd hdone hno
        · exact (tour_sound horderly.2 (List.nodup_cons.mp hnodup).2 hs.skip).1 h
      · obtain ⟨new, hshown⟩ := shown_tour horderly haccepts s
        have hsteady := hshown.steady hs hd hdone
        have hkept : d ∈ (tour r (tour r (s.enter d) (inner d)) ds).shown :=
          (tour_sound horderly.2 (List.nodup_cons.mp hnodup).2 hsteady).1 (hshown.mem_shown.mpr (.inr (.inl rfl)))
        rw [tour_of_free haccepts hdone, ih horderly.2 hrest hsteady, hshown.unlost_iff hs horderly hkeys haccepts hdone]
        exact and_iff_right fun _ => hkept
    · rw [tour_of_blocked fun hfree => haccepts hfree.1, ih horderly.2 hrest hs.skip, unshared_cons hrest]
      have hnone : ∀ x, x ∉ announcedBy r d := fun x hx => haccepts (mem_announcedBy.mp hx).1
      constructor
      · rintro ⟨-, hunlost, hunshared⟩
        refine ⟨⟨?_, hunlost.single.cons fun e _ ha => absurd ha haccepts⟩,
          fun e _ e' _ _ _ _ hx => absurd hx (hnone _), hunshared⟩
        intro e he ha
        rcases List.mem_cons.mp he with rfl | he'
        · exact absurd ha haccepts
        · exact hunlost.kept e he' ha
      · rintro ⟨hunlost, -, hunshared⟩
        exact ⟨fun h => absurd h haccepts, hunlost.skip, hunshared⟩

/-! ## The outline follows the tour -/

theorem outline_cons (o : Outline) (d : Definition) (rest : List Definition) :
    outline r o (d :: rest) =
      if r.accepts d = true ∧ d.extent ∉ o.done then
        o.add r d >>= fun o => outline r (o.announce (inner d)) (inner d ++ rest)
      else outline r o rest := by
  have hnone : ∀ o : Outline, o.announce [] = o := fun _ => rfl
  rw [outline]
  by_cases hfree : r.accepts d = true ∧ d.extent ∉ o.done
  · rw [if_pos hfree, if_neg (by simp [hfree.1, hfree.2])]
    congr 1
    funext o
    unfold inner
    split
    · split
      · next hmembers => rw [hmembers]
      · next hmembers => rw [hmembers, hnone, List.nil_append]
    · rw [hnone, List.nil_append]
  · rw [if_neg hfree, if_pos]
    by_cases haccepts : r.accepts d = true
    · simpa [haccepts] using hfree
    · simp [haccepts]

/-- **A member is announced with a kind that is none**, at the place of a definition that is shown. This is the only fault
of an outline. -/
def Misannounced (r : OutlineRules) (ds : List Definition) (f : Fault) : Prop :=
  ∃ c ∈ ds, ∃ m ∈ inner c, ∃ d ∈ ds, r.accepts d = true ∧ d.extent = m.extent ∧
    symbolKind? (announcedKind m) = none ∧ f = .keyMissing (announcedKind m)

/-- The kind of a definition that is shown is known, unless another one was announced. -/
theorem kindOf_cases {d : Definition} (h : isShown d = true) (announced : Option String) :
    (∃ k, kindOf d announced = .ok k) ∨
      ∃ kind, announced = some kind ∧ symbolKind? kind = none ∧ kindOf d announced = .error (.keyMissing kind) := by
  have hknown : (symbolKind? d.kind).isSome = true := (Bool.and_eq_true_iff.mp h).2
  unfold kindOf
  by_cases hself : (d.kind == "statement" && Text.hasPrefix "self" d.description) = true
  · refine .inl ⟨.field, ?_⟩
    rw [if_pos hself]
    rfl
  · rw [if_neg hself]
    cases announced with
    | none =>
      obtain ⟨k, hk⟩ := Option.isSome_iff_exists.mp hknown
      exact .inl ⟨k, by simp [hk]⟩
    | some kind =>
      cases hkind : symbolKind? kind with
      | some k => exact .inl ⟨k, by simp [hkind]⟩
      | none => exact .inr ⟨kind, rfl, hkind, by simp [hkind]⟩

/-- **An outline follows a tour**: it has the symbols of what was shown, and it knows the same places. -/
structure Follows (r : OutlineRules) (ds : List Definition) (o : Outline) (s : Tour) : Prop where
  symbols : o.symbols.map (fun y => (y.name, y.range)) = s.shown.map fun d => (d.name, extentRange d.extent)
  uri : ∀ y ∈ o.symbols, y.uri = r.uri
  done : o.done = s.done
  announced : ∀ x, (Table.get? o.announced x).isSome = true ↔ x ∈ s.announced
  kinds : ∀ x kind, Table.get? o.announced x = some kind → ∃ c ∈ ds, ∃ m ∈ inner c, m.extent = x ∧ announcedKind m = kind

theorem follows_start (r : OutlineRules) (ds : List Definition) : Follows r ds {} {} where
  symbols := rfl
  uri := nofun
  done := rfl
  announced := by simp [Table.get?]
  kinds := nofun

theorem get?_announce (o : Outline) (ms : List Definition) (x : Extent) :
    Table.get? (o.announce ms).announced x =
      (Table.get? (ms.map fun m => (m.extent, announcedKind m)).reverse x <|> Table.get? o.announced x) :=
  Table.get?_putAll _ _ x

theorem isSome_announce (o : Outline) (ms : List Definition) (x : Extent) :
    (Table.get? (o.announce ms).announced x).isSome = true ↔
      x ∈ ms.map (·.extent) ∨ (Table.get? o.announced x).isSome = true := by
  have hkeys : x ∈ Table.keys (ms.map fun m => (m.extent, announcedKind m)).reverse ↔ x ∈ ms.map (·.extent) := by
    simp [Table.keys]
  rw [get?_announce, ← hkeys, Table.mem_keys_iff]
  cases Table.get? (ms.map fun m => (m.extent, announcedKind m)).reverse x <;> simp

/-- What is announced is announced now, by a member at that place, or was before. -/
theorem announce_cases {o : Outline} {ms : List Definition} {x : Extent} {kind : String}
    (h : Table.get? (o.announce ms).announced x = some kind) :
    (∃ m ∈ ms, m.extent = x ∧ announcedKind m = kind) ∨ Table.get? o.announced x = some kind := by
  rw [get?_announce] at h
  cases hnew : Table.get? (ms.map fun m => (m.extent, announcedKind m)).reverse x with
  | none =>
    rw [hnew] at h
    exact .inr h
  | some v =>
    rw [hnew] at h
    cases h
    obtain ⟨m, hm, heq⟩ := List.mem_map.mp (List.mem_reverse.mp (Table.mem_of_get? hnew))
    cases heq
    exact .inl ⟨m, hm, rfl, rfl⟩

/-- A definition is shown, and its members are announced. -/
theorem Follows.enter {ds : List Definition} {o : Outline} {s : Tour} (h : Follows r ds o s) {d : Definition} (hd : d ∈ ds)
    (haccepts : r.accepts d = true) :
    (∃ o', o.add r d = .ok o' ∧ Follows r ds (o'.announce (inner d)) (s.enter d)) ∨
      ∃ f, Misannounced r ds f ∧ o.add r d = .error f := by
  have hshown : isShown d = true := (Bool.and_eq_true_iff.mp (Bool.and_eq_true_iff.mp haccepts).1).2
  rcases kindOf_cases hshown (Table.get? o.announced d.extent) with ⟨kind, hkind⟩ | ⟨kind, htold, hnone, hkind⟩
  · refine .inl ⟨_, by simp only [Outline.add, hkind, bind, Except.bind]; rfl, ?_⟩
    refine ⟨?_, ?_, ?_, ?_, ?_⟩
    · simp [Outline.announce, Tour.enter, h.symbols]
    · intro y hy
      rcases List.mem_append.mp hy with hold | hnew
      · exact h.uri y hold
      · cases List.mem_singleton.mp hnew
        rfl
    · simp only [Outline.announce, Tour.enter, h.done, h.announced]
    · intro x
      rw [isSome_announce, Tour.enter, List.mem_append, ← h.announced]
    · intro x kind' hkind'
      rcases announce_cases hkind' with ⟨m, hm, hplace, htold⟩ | hold
      · exact ⟨d, hd, m, hm, hplace, htold⟩
      · exact h.kinds x kind' hold
  · obtain ⟨c, hc, m, hm, hplace, rfl⟩ := h.kinds _ _ htold
    refine .inr ⟨_, ⟨c, hc, m, hm, d, hd, haccepts, hplace.symm, hnone, rfl⟩, ?_⟩
    simp only [Outline.add, hkind, bind, Except.bind]

/-- **The outline of definitions follows the tour through them**, unless a kind is none. -/
theorem outline_follows {ds : List Definition} (horderly : Orderly ds) {o : Outline} {s : Tour} (h : Follows r ds o s)
    (ws : List Definition) (hws : ws ⊆ ds) :
    (∃ o', outline r o ws = .ok o' ∧ Follows r ds o' (tour r s ws)) ∨
      ∃ f, Misannounced r ds f ∧ outline r o ws = .error f := by
  match ws with
  | [] =>
    rw [outline, tour]
    exact .inl ⟨o, rfl, h⟩
  | d :: rest =>
    have hd : d ∈ ds := hws List.mem_cons_self
    have hrest : rest ⊆ ds := List.subset_of_cons_subset hws
    rw [outline_cons, h.done]
    split
    · next hfree =>
      rw [tour_of_free hfree.1 hfree.2, ← tour_append]
      rcases h.enter hd hfree.1 with ⟨o', hadd, hfollows⟩ | ⟨f, hmis, hadd⟩
      · rw [hadd]
        exact outline_follows horderly hfollows (inner d ++ rest)
          (List.append_subset.mpr ⟨horderly.inner_subset hd, hrest⟩)
      · rw [hadd]
        exact .inr ⟨f, hmis, rfl⟩
    · next hblocked =>
      rw [tour_of_blocked hblocked]
      exact outline_follows horderly h rest hrest
termination_by weights ws
decreasing_by
  · simp only [weights]
    have := weight_pos d
    omega
  · simp only [weights, weights_append]
    have := weights_inner d
    omega

/-! ## The symbols that are answered -/

/-- **What a symbol says of a definition**: its name and its range. -/
def label (d : Definition) : String × Protocol.Range := (d.name, extentRange d.extent)

theorem key_eq_of_label {d e : Definition} (h : label d = label e) : key d = key e := by
  obtain ⟨hname, hrange⟩ := Prod.mk.inj h
  have hextent : d.extent = e.extent := by
    cases hd : d.extent with
    | mk a b c i =>
      cases he : e.extent with
      | mk a' b' c' i' =>
        rw [hd, he] at hrange
        simp only [extentRange, Protocol.Range.mk.injEq, Protocol.Position.mk.injEq] at hrange
        obtain ⟨⟨hline, rfl⟩, hline', rfl⟩ := hrange
        have hstart : a = a' := by omega
        have hend : c = c' := by omega
        rw [hstart, hend]
  exact Prod.ext hname hextent

/-- **The walk from the start.** It shows nothing twice and nothing that is not accepted, and it shows all that is accepted
exactly if no announced place is shared. -/
theorem perm_label_tour_iff {ds : List Definition} (horderly : Orderly ds) (hkeys : (ds.map key).Nodup) :
    ((tour r {} ds).shown.map label).Nodup ∧ (∀ e ∈ (tour r {} ds).shown, e ∈ ds ∧ r.accepts e = true) ∧
      (((tour r {} ds).shown.map label).Perm ((ds.filter r.accepts).map label) ↔ Unshared r ds) := by
  have hnodup : ds.Nodup := List.Nodup.of_map key hkeys
  obtain ⟨-, honce, honly⟩ := tour_sound horderly hnodup (steady_start r ds)
  have hlisted : ∀ e ∈ (tour r {} ds).shown, e ∈ ds ∧ r.accepts e = true := by
    intro e he
    rcases honly e he with hold | ⟨hmem, haccepts, -⟩
    · exact nomatch hold
    · exact ⟨hmem, haccepts⟩
  have hlabel : ∀ d ∈ ds, ∀ e ∈ ds, label d = label e → d = e :=
    fun d hd e he heq => eq_of_key hkeys hd he (key_eq_of_label heq)
  have hcomplete := tour_complete_iff horderly hkeys (steady_start r ds)
  refine ⟨honce.map_on fun d hd e he => hlabel d (hlisted d hd).1 e (hlisted e he).1, hlisted, ?_⟩
  rw [← and_iff_right (unlost_start r ds) (b := Unshared r ds), ← hcomplete]
  constructor
  · intro hperm d hd haccepts
    have hmem := hperm.mem_iff.mpr (List.mem_map_of_mem (List.mem_filter.mpr ⟨hd, haccepts⟩))
    obtain ⟨e, he, heq⟩ := List.mem_map.mp hmem
    rwa [hlabel e (hlisted e he).1 d hd heq] at he
  · intro hall
    refine List.Perm.map label ((List.perm_ext_iff_of_nodup honce (hnodup.filter _)).mpr fun d => ?_)
    rw [List.mem_filter]
    exact ⟨hlisted d, fun h => hall d h.1 h.2⟩

/-- The rules for a document, and the definitions that the engine lists for it. -/
def listing (config : Config) (v : DocumentView) : Job (OutlineRules × List Definition) := do
  let settings ← Job.pluginSettings config "jedi_symbols" none
  let allScopes ← Job.ofExcept (settings.getD "all_scopes" (.bool true))
  let withImports ← Job.ofExcept (settings.getD "include_import_symbols" (.bool true))
  let directory := Path.normalized (Path.directoryOf v.document.path)
  let beside := !(← Job.files).isFile (Path.appended directory "__init__.py")
  let definitions ← v.namesIn (.bool beside) allScopes (.bool true) (.bool false)
  return ({
    uri := v.document.uri, path := v.document.path, moduleName := v.document.dottedName
    withImports := withImports.truthy }, definitions)

theorem symbols_eq (config : Config) (v : DocumentView) :
    symbols config v = listing config v >>= fun (rules, definitions) => do
      let o ← Job.ofExcept (outline rules {} definitions)
      return .list (o.symbols.map DocumentSymbol.toValue) := by
  simp only [symbols, listing, bind_assoc, pure_bind]

theorem listing_eq_ok {config : Config} {v : DocumentView} {b b' : Bench} {rules : OutlineRules} {ds : List Definition}
    (h : (listing config v).perform b = (.ok (rules, ds), b')) :
    b.host.answers.engine.names = .ok ds ∧ rules.uri = v.document.uri ∧ rules.path = v.document.path := by
  obtain ⟨settings, b₁, hsettings, h⟩ := Job.perform_bind_eq_ok.mp h
  obtain ⟨allScopes, b₂, hscopes, h⟩ := Job.perform_bind_eq_ok.mp h
  obtain ⟨withImports, b₃, himports, h⟩ := Job.perform_bind_eq_ok.mp h
  obtain ⟨files, b₄, hfiles, h⟩ := Job.perform_bind_eq_ok.mp h
  obtain ⟨found, b₅, hfound, h⟩ := Job.perform_bind_eq_ok.mp h
  obtain ⟨_, b₆, hopen, hask⟩ := Job.perform_bind_eq_ok.mp hfound
  have hread : b₄ = b₃ := (Prod.mk.inj hfiles).2.symm
  have hhost : b₆.host = b.host := by
    rw [host_of_keeps (keeps_openInEngine v _ _) hopen, hread, (ofExcept_eq_ok himports).2, (ofExcept_eq_ok hscopes).2,
      host_of_keeps (keeps_pluginSettings _ _ _) hsettings]
  obtain ⟨hanswer, -⟩ := ask_eq_ok hask
  rw [hhost] at hanswer
  cases h
  exact ⟨hanswer, rfl, rfl⟩

/-- Reads what the dictionary of a symbol says of its place: the document, the name and the range. -/
def placeOf (v : Value) : Except Fault (String × String × Protocol.Range) := do
  let name ← (← v.item "name").text
  let location ← v.item "location"
  let uri ← (← location.item "uri").text
  let range ← Protocol.Range.ofValue (← location.item "range")
  return (uri, name, range)

theorem placeOf_toValue (y : DocumentSymbol) : placeOf y.toValue = .ok (y.uri, y.name, y.range) := rfl

/-- **The outline shows each definition once, exactly if no announced place is shared.** Whatever the engine lists, with
classes before their members: no definition is shown twice, and only definitions of the document are shown, under their
names and ranges, which is what the answer says. All of them are shown exactly if the list is `Unshared`. The one fault is a
kind that is none. -/
theorem symbols_complete_iff_unshared {config : Config} {v : DocumentView} {b b' : Bench} {rules : OutlineRules}
    {ds : List Definition} (hlisted : (listing config v).perform b = (.ok (rules, ds), b')) (horderly : Orderly ds)
    (hkeys : (ds.map key).Nodup) :
    b.host.answers.engine.names = .ok ds ∧ rules.uri = v.document.uri ∧ rules.path = v.document.path ∧
    ((∃ f, Misannounced rules ds f ∧ ((symbols config v).perform b).1 = .error f) ∨
      ∃ shown : List DocumentSymbol,
        ((symbols config v).perform b).1 = .ok (.list (shown.map DocumentSymbol.toValue)) ∧
        (shown.map DocumentSymbol.toValue).mapM placeOf = .ok (shown.map fun y => (y.uri, y.name, y.range)) ∧
        (∀ y ∈ shown, y.uri = v.document.uri) ∧
        (∀ y ∈ shown, ∃ d ∈ ds, rules.accepts d = true ∧ (y.name, y.range) = label d) ∧
        (shown.map fun y => (y.name, y.range)).Nodup ∧
        ((shown.map fun y => (y.name, y.range)).Perm ((ds.filter rules.accepts).map label) ↔ Unshared rules ds)) := by
  obtain ⟨hnames, huri, hpath⟩ := listing_eq_ok hlisted
  refine ⟨hnames, huri, hpath, ?_⟩
  have hperform : ((symbols config v).perform b).1 =
      (outline rules {} ds).map fun o => .list (o.symbols.map DocumentSymbol.toValue) := by
    rw [symbols_eq, Job.outcome_bind, hlisted]
    show ((Job.ofExcept (outline rules {} ds) >>= _).perform b').1 = _
    rw [Job.outcome_bind, Job.perform_ofExcept]
    cases outline rules {} ds <;> rfl
  rw [hperform]
  rcases outline_follows horderly (follows_start rules ds) ds (List.Subset.refl ds) with ⟨o, ho, hfollows⟩ | ⟨f, hf, ho⟩
  · obtain ⟨honce, honly, hcomplete⟩ := perm_label_tour_iff (r := rules) horderly hkeys
    have hsymbols : o.symbols.map (fun y => (y.name, y.range)) = (tour rules {} ds).shown.map label := hfollows.symbols
    rw [ho]
    refine .inr ⟨o.symbols, rfl, Fault.mapM_read_map placeOf_toValue o.symbols,
      fun y hy => (hfollows.uri y hy).trans huri, fun y hy => ?_, ?_, ?_⟩
    · have hmem : (y.name, y.range) ∈ (tour rules {} ds).shown.map label := hsymbols ▸ List.mem_map_of_mem hy
      obtain ⟨d, hd, heq⟩ := List.mem_map.mp hmem
      exact ⟨d, (honly d hd).1, (honly d hd).2, heq.symm⟩
    · rw [hsymbols]
      exact honce
    · rw [hsymbols]
      exact hcomplete
  · rw [ho]
    exact .inl ⟨f, hf, rfl⟩

/-- A document of a project. -/
def mainModule : DocumentView where
  document := {
    uri := "file:///ws/main.py", path := "/ws/main.py", dottedName := "main", fileName := "main.py"
    source := some "", home := 0 }
  config := none
  rootPath := "/ws"

/-- The configuration of the project. -/
def mainConfig : Config where
  id := 0
  rootUri := "file:///ws"
  rootPath := "/ws"
  initOptions := .null
  processId := .null
  capabilities := .null

/-- What the document's symbols depend on. -/
def mainRules : OutlineRules where
  uri := "file:///ws/main.py"
  path := "/ws/main.py"
  moduleName := "main"
  withImports := true

/-- A definition in the document. -/
def definedIn (name kind : String) (extent : Extent) (members : List Definition) : Definition where
  name
  kind
  fullName := none
  description := ""
  modulePath := some "/ws/main.py"
  line := some extent.startLine
  column := some extent.startColumn
  index := none
  params := []
  extent
  parent := .ok none
  members := .ok members
  doc := ""
  rawDoc := ""
  signatures := []
  text := ""
  isDefinition := true
  isBuiltIn := false

/-- A field, defined by the statement at a place. -/
def fieldAt (name : String) (extent : Extent) : Definition := definedIn name "statement" extent []

/-- A class with fields, which are listed behind it. -/
def classWith (fields : List Definition) : List Definition := definedIn "C" "class" ⟨1, 0, 4, 0⟩ fields :: fields

/-- The engine lists definitions. -/
def listed (ds : List Definition) : Bench where
  host := { answers := { engine := { names := .ok ds } } }

theorem listing_listed (ds : List Definition) :
    ((listing mainConfig mainModule).perform (listed ds)).1 = .ok (mainRules, ds) := rfl

/-- Of two fields of one statement one is lost; of two that have a statement each, none is. -/
theorem symbols_complete_iff_unshared_two_fields :
    (∃ shown : List DocumentSymbol,
      ((symbols mainConfig mainModule).perform
        (listed (classWith [fieldAt "a" ⟨2, 4, 2, 15⟩, fieldAt "b" ⟨2, 4, 2, 15⟩]))).1 =
          .ok (.list (shown.map DocumentSymbol.toValue)) ∧
      ¬ (shown.map fun y => (y.name, y.range)).Perm
        ((classWith [fieldAt "a" ⟨2, 4, 2, 15⟩, fieldAt "b" ⟨2, 4, 2, 15⟩]).map label)) ∧
    ∃ shown : List DocumentSymbol,
      ((symbols mainConfig mainModule).perform
        (listed (classWith [fieldAt "a" ⟨2, 4, 2, 9⟩, fieldAt "b" ⟨3, 4, 3, 9⟩]))).1 =
          .ok (.list (shown.map DocumentSymbol.toValue)) ∧
      (shown.map fun y => (y.name, y.range)).Perm
        ((classWith [fieldAt "a" ⟨2, 4, 2, 9⟩, fieldAt "b" ⟨3, 4, 3, 9⟩]).map label) := by
  have hshown : ∀ x y, ∃ shown : List DocumentSymbol,
      ((symbols mainConfig mainModule).perform (listed (classWith [fieldAt "a" x, fieldAt "b" y]))).1 =
        .ok (.list (shown.map DocumentSymbol.toValue)) ∧
      ((shown.map fun y => (y.name, y.range)).Perm ((classWith [fieldAt "a" x, fieldAt "b" y]).map label) ↔
        Unshared mainRules (classWith [fieldAt "a" x, fieldAt "b" y])) := by
    intro x y
    have horderly : Orderly (classWith [fieldAt "a" x, fieldAt "b" y]) :=
      ⟨List.Subset.refl _, List.nil_subset _, List.nil_subset _, trivial⟩
    have hkeys : ((classWith [fieldAt "a" x, fieldAt "b" y]).map key).Nodup := by
      simp [classWith, fieldAt, definedIn, key]
    have hall : (classWith [fieldAt "a" x, fieldAt "b" y]).filter mainRules.accepts =
        classWith [fieldAt "a" x, fieldAt "b" y] := rfl
    rcases hlisted : (listing mainConfig mainModule).perform (listed (classWith [fieldAt "a" x, fieldAt "b" y])) with ⟨_, b'⟩
    have hanswer := listing_listed (classWith [fieldAt "a" x, fieldAt "b" y])
    rw [hlisted] at hanswer
    cases hanswer
    obtain ⟨-, -, -, hcases⟩ := symbols_complete_iff_unshared hlisted horderly hkeys
    rcases hcases with ⟨f, ⟨c, hc, m, hm, -, -, -, -, hnone, -⟩, -⟩ | ⟨shown, hresult, -, -, -, -, hiff⟩
    · simp only [classWith, List.mem_cons, List.not_mem_nil, or_false] at hc
      rcases hc with rfl | rfl | rfl
      · rcases List.mem_cons.mp (hm : m ∈ [fieldAt "a" x, fieldAt "b" y]) with rfl | hm
        · cases hnone
        · cases List.mem_singleton.mp hm
          cases hnone
      · cases hm
      · cases hm
    · rw [hall] at hiff
      exact ⟨shown, hresult, hiff⟩
  refine ⟨?_, ?_⟩
  · obtain ⟨shown, hresult, hiff⟩ := hshown ⟨2, 4, 2, 15⟩ ⟨2, 4, 2, 15⟩
    exact ⟨shown, hresult, fun hperm => absurd (hiff.mp hperm) (by decide +kernel)⟩
  · obtain ⟨shown, hresult, hiff⟩ := hshown ⟨2, 4, 2, 9⟩ ⟨3, 4, 3, 9⟩
    exact ⟨shown, hresult, hiff.mpr (by decide +kernel)⟩

end EditorService.Feature

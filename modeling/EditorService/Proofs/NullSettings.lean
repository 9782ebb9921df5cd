import EditorService.Proofs.FileLayers

/-!
# Settings that are null

A client writes null for an option that is not set. Merging treats such a null as if the key were absent, but only while
it goes through two dictionaries side by side: a dictionary that the lower layer does not have is taken over as it is,
with all nulls in it.

A null is **covered** when the lower layer has a dictionary at the place where the null's own dictionary is. **The law**
(`merge_forgets_nulls_iff_covered`): merging a layer is the same as merging it without its nulls exactly if all its nulls
are covered, and exactly then a null of the merged layer is one of the lower layer. What this comes to for settings as a
whole is told place by place: a null that the client sent is seen where neither the defaults cover it nor a file speaks.
-/

namespace EditorService

namespace Settings

variable {a b v : Value} {x y : List (String × Value)} {k : String}

/-! ## Leaving nulls out -/

mutual

/-- **A value without its nulls**: keys that are null are left out of every dictionary that keys lead to. A dictionary
stays, also when nothing is left in it. -/
def pruned : Value → Value
  | .dict entries => .dict (prunedEntries entries)
  | v => v

/-- Entries without their nulls. -/
def prunedEntries : List (String × Value) → List (String × Value)
  | [] => []
  | (k, v) :: rest => if v = .null then prunedEntries rest else (k, pruned v) :: prunedEntries rest

end

theorem pruned_of_plain (h : v.isDict = false) : pruned v = v := by
  cases v with
  | dict entries => exact nomatch h
  | _ => rfl

theorem prunedEntries_eq_map (entries : List (String × Value)) :
    prunedEntries entries = (entries.filter fun e => e.2 ≠ .null).map fun e => (e.1, pruned e.2) := by
  induction entries with
  | nil => rfl
  | cons e rest ih =>
    by_cases hnull : e.2 = .null
    · simp [prunedEntries, hnull, ih]
    · simp [prunedEntries, hnull, ih]

/-- What a lookup sees among entries without their nulls. -/
theorem get?_prunedEntries (h : (Table.keys y).Nodup) (k : String) :
    Table.get? (prunedEntries y) k = (Table.get? y k).bind fun w => if w = .null then none else some (pruned w) := by
  induction y with
  | nil => rfl
  | cons e rest ih =>
    obtain ⟨j, w⟩ := e
    obtain ⟨hnot, hrest⟩ := List.nodup_cons.mp h
    have hrest := ih hrest
    by_cases hj : j = k
    · subst hj
      have habsent : Table.get? rest j = none := by
        rw [← Option.not_isSome_iff_eq_none, ← Table.mem_keys_iff]
        exact hnot
      by_cases hnull : w = .null
      · simp [prunedEntries, hnull, hrest, habsent, Table.get?]
      · simp [prunedEntries, hnull, Table.get?]
    · by_cases hnull : w = .null
      · simp [prunedEntries, hnull, hrest, Table.get?, hj]
      · simp [prunedEntries, hnull, hrest, Table.get?, hj]

/-- No key leads to a null any more. -/
theorem nullFree_pruned (hv : Distinct v) (hnull : v ≠ .null) : NullFree (pruned v) := by
  intro place
  induction place generalizing v with
  | nil =>
    intro hnode
    cases v <;> simp_all [pruned, nodeAt?]
  | cons k place ih =>
    cases v with
    | dict entries =>
      have hnodup : (Table.keys entries).Nodup := hv [] entries rfl
      rw [pruned, nodeAt?, get?_prunedEntries hnodup]
      cases hk : Table.get? entries k with
      | none => exact (Option.some_ne_none _).symm
      | some w =>
        by_cases hw : w = .null
        · simp [hw]
        · simpa [hw] using ih (hv.below hk) hw
    | _ => exact (Option.some_ne_none _).symm

/-! ## Nulls of a merged layer -/

/-- **Whether a place is a dictionary.** -/
def hasDict (place : List String) (v : Value) : Bool := (nodeAt? place v).any Value.isDict

theorem hasDict_of_plain (h : a.isDict = false) (place : List String) : hasDict place a = false := by
  cases place with
  | nil => exact h
  | cons k place => rw [hasDict, nodeAt?_cons_of_plain h, Option.any_none]

theorem hasDict_below (h : Table.get? x k = some v) (place : List String) :
    hasDict (k :: place) (.dict x) = hasDict place v := by
  rw [hasDict, nodeAt?_below h, hasDict]

theorem nodeAt?_singleton (k : String) : nodeAt? [k] (.dict x) = Table.get? x k := by
  rw [nodeAt?]
  cases Table.get? x k <;> rfl

theorem mergeValue_eq_null : mergeValue a b = .null ↔ b = .null ∧ a = .null := by
  cases a <;> cases b <;> simp [mergeValue]

theorem isSilent_nil : isSilent [] v = true ↔ v = .null := by
  cases v <;> simp [isSilent]

/-- The nulls that are seen at a place after a merge, where the layers are not two dictionaries. -/
theorem null_mergeValue_of_plain (h : a.isDict = false ∨ b.isDict = false) (place : List String) (key : String) :
    nodeAt? (place ++ [key]) (mergeValue a b) = some .null ↔
      isSilent (place ++ [key]) b = true ∧ nodeAt? (place ++ [key]) a = some .null ∨
        nodeAt? (place ++ [key]) b = some .null ∧ hasDict place a = false := by
  obtain ⟨k, deeper, hplace⟩ : ∃ k deeper, place ++ [key] = k :: deeper := by
    cases place with
    | nil => exact ⟨key, [], rfl⟩
    | cons k place => exact ⟨k, place ++ [key], rfl⟩
  rw [hplace]
  by_cases hnull : b = .null
  · subst hnull
    simp [mergeValue_null, isSilent, nodeAt?]
  · rw [mergeValue_of_plain h hnull]
    rcases h with ha | hb
    · simp [nodeAt?_cons_of_plain ha, hasDict_of_plain ha]
    · have hspeaks : isSilent (k :: deeper) b = false := by
        cases b <;> simp_all [isSilent, Value.isDict]
      simp [nodeAt?_cons_of_plain hb, hspeaks]

/-- **The nulls of a merged layer.** A null of the lower layer is seen where the later one is silent. A null of the later
layer is seen where the lower one has no dictionary to hold it. -/
theorem null_mergeValue (place : List String) (key : String) (a b : Value) :
    nodeAt? (place ++ [key]) (mergeValue a b) = some .null ↔
      isSilent (place ++ [key]) b = true ∧ nodeAt? (place ++ [key]) a = some .null ∨
        nodeAt? (place ++ [key]) b = some .null ∧ hasDict place a = false := by
  induction place generalizing a b with
  | nil =>
    by_cases hplain : a.isDict = false ∨ b.isDict = false
    · exact null_mergeValue_of_plain hplain [] key
    · cases a with
      | dict x =>
        cases b with
        | dict y =>
          rw [mergeValue_dict]
          simp only [List.nil_append, nodeAt?_singleton, isSilent, get?_merge]
          have hheld : hasDict [] (.dict x) = true := rfl
          rw [hheld]
          cases Table.get? y key with
          | none => simp
          | some w =>
            cases Table.get? x key with
            | some v => simp [mergeEntry, mergeValue_eq_null, isSilent_nil]
            | none => cases w <;> simp [mergeEntry]
        | _ => simp [Value.isDict] at hplain
      | _ => simp [Value.isDict] at hplain
  | cons k place ih =>
    by_cases hplain : a.isDict = false ∨ b.isDict = false
    · exact null_mergeValue_of_plain hplain (k :: place) key
    · cases a with
      | dict x =>
        cases b with
        | dict y =>
          rw [mergeValue_dict]
          simp only [List.cons_append, nodeAt?, isSilent, get?_merge]
          cases hy : Table.get? y k with
          | none => simp
          | some w =>
            cases hx : Table.get? x k with
            | some v => simpa [mergeEntry, hasDict_below hx] using ih v w
            | none =>
              -- Only the later layer has the key, so what is below it is taken over as it is.
              have hheld : hasDict (k :: place) (.dict x) = false := by simp [hasDict, nodeAt?, hx]
              by_cases hnull : w = .null
              · subst hnull
                cases place <;> simp [mergeEntry, nodeAt?]
              · have hentry : mergeEntry none (some w) = some w := mergeEntry_none_left (by simpa using hnull)
                simp [hentry, hheld]
        | _ => simp [Value.isDict] at hplain
      | _ => simp [Value.isDict] at hplain

/-! ## Covered nulls -/

/-- **A value covers the nulls of another**: it has a dictionary wherever the other has a dictionary with a null in it. -/
def Covers (a b : Value) : Prop := ∀ place key, nodeAt? (place ++ [key]) b = some .null → hasDict place a = true

instance : Decidable (Covers a b) :=
  decidable_of_iff (∀ n ∈ nodes b, n.2 = .null → n.1 ≠ [] → hasDict n.1.dropLast a = true)
    ⟨fun h place key hnode => by
      have hheld := h _ ((mem_nodes b (place ++ [key]) .null).mpr hnode) rfl (by simp)
      rwa [List.dropLast_concat] at hheld,
    fun h n hn hnull hne => by
      obtain ⟨place, node⟩ := n
      obtain ⟨front, key, rfl⟩ := List.eq_nil_or_concat place |>.resolve_left hne
      rw [List.concat_eq_append] at hn ⊢
      rw [List.dropLast_concat]
      exact h front key (hnull ▸ (mem_nodes b _ node).mp hn)⟩

/-- What is no dictionary covers as much as nothing. -/
theorem Covers.of_plain (h : Covers a b) (ha : a.isDict = false) : Covers .null b := by
  intro place key hnode
  have hheld := h place key hnode
  rw [hasDict_of_plain ha] at hheld
  exact nomatch hheld

/-- Below a key, the nulls are covered by what the lower layer has at that key, if anything. -/
theorem Covers.below {w : Value} (h : Covers (.dict x) (.dict y)) (hy : Table.get? y k = some w) :
    Covers ((Table.get? x k).getD .null) w := by
  intro place key hnode
  have hheld := h (k :: place) key ((nodeAt?_below hy _).trans hnode)
  cases hx : Table.get? x k with
  | some v => rwa [hasDict_below hx] at hheld
  | none =>
    rw [hasDict, nodeAt?, hx] at hheld
    cases hheld

theorem Covers.below_none {w : Value} (h : Covers .null (.dict y)) (hy : Table.get? y k = some w) : Covers .null w := by
  intro place key hnode
  have hheld := h (k :: place) key ((nodeAt?_below hy _).trans hnode)
  rw [hasDict_of_plain rfl] at hheld
  exact nomatch hheld

/-- Nothing is left out of a value none of whose nulls needs to be covered. -/
theorem pruned_eq_self (hv : Distinct v) (h : Covers .null v) : pruned v = v := by
  induction v using Value.dictInduction with
  | leaf v hplain => exact pruned_of_plain hplain
  | dict entries ih =>
    have hnodup : (Table.keys entries).Nodup := hv [] entries rfl
    have hfull : ∀ e ∈ entries, e.2 ≠ .null := by
      intro e he hnull
      have hnode : nodeAt? ([] ++ [e.1]) (.dict entries) = some .null := by
        rw [List.nil_append, nodeAt?_singleton, Table.get?_of_mem hnodup he, hnull]
      exact nomatch h [] e.1 hnode
    have hkept : entries.filter (fun e => e.2 ≠ .null) = entries :=
      List.filter_eq_self.mpr fun e he => decide_eq_true (hfull e he)
    rw [pruned, prunedEntries_eq_map, hkept]
    congr 1
    refine (List.map_congr_left fun e he => ?_).trans (List.map_id entries)
    have hk : Table.get? entries e.1 = some e.2 := Table.get?_of_mem hnodup he
    rw [ih e he (hv.below hk) (h.below_none hk), id_eq]

/-- The entries of the lower layer, overridden with or without nulls. -/
theorem overridden_prunedEntries (hx : (Table.keys x).Nodup) (hy : (Table.keys y).Nodup)
    (hvalues : ∀ k v w, Table.get? x k = some v → Table.get? y k = some w → mergeValue v (pruned w) = mergeValue v w) :
    overridden x (prunedEntries y) = overridden x y := by
  rw [overridden_eq_map, overridden_eq_map]
  refine List.map_congr_left fun e he => ?_
  rw [get?_prunedEntries hy]
  congr 1
  cases hw : Table.get? y e.1 with
  | none => rfl
  | some w =>
    by_cases hnull : w = .null
    · subst hnull
      simp [overriddenBy, mergeValue_null]
    · simpa [overriddenBy, hnull] using hvalues e.1 e.2 w (Table.get?_of_mem hx he) hw

/-- The entries that only the later layer has, with or without nulls. -/
theorem added_prunedEntries (hy : (Table.keys y).Nodup)
    (hvalues : ∀ k w, Table.get? x k = none → Table.get? y k = some w → pruned w = w) :
    added x (prunedEntries y) = added x y := by
  have hkept : added x y = (y.filter fun e => e.2 ≠ .null).filter fun e => !Table.has x e.1 := by
    rw [added, List.filter_filter]
    refine List.filter_congr fun e he => ?_
    rw [Table.get?_of_mem hy he]
    by_cases hnull : e.2 = .null <;> simp [hnull]
  have hpruned : added x (prunedEntries y) = (prunedEntries y).filter fun e => !Table.has x e.1 := by
    refine List.filter_congr fun e _ => ?_
    have hfull : Table.get? (prunedEntries y) e.1 ≠ some .null := by
      rw [get?_prunedEntries hy]
      cases Table.get? y e.1 with
      | none => exact (Option.some_ne_none _).symm
      | some w =>
        by_cases hnull : w = .null
        · simp [hnull]
        · cases w <;> simp_all [pruned]
    simp [hfull]
  rw [hpruned, hkept, prunedEntries_eq_map, List.filter_map]
  refine (List.map_congr_left fun e he => ?_).trans (List.map_id _)
  obtain ⟨hfull, hnew⟩ := List.mem_filter.mp he
  have hmem : e ∈ y := (List.mem_filter.mp hfull).1
  have habsent : Table.get? x e.1 = none := by simpa [Table.has] using hnew
  rw [hvalues e.1 e.2 habsent (Table.get?_of_mem hy hmem), id_eq]

/-- **Covered nulls are as good as absent.** -/
theorem mergeValue_pruned (ha : Distinct a) (hb : Distinct b) (h : Covers a b) :
    mergeValue a (pruned b) = mergeValue a b := by
  induction b using Value.dictInduction generalizing a with
  | leaf b hplain => rw [pruned_of_plain hplain]
  | dict y ih =>
    cases hdict : a.isDict with
    | false => rw [pruned_eq_self hb (h.of_plain hdict)]
    | true =>
      cases a with
      | dict x =>
        have hx : (Table.keys x).Nodup := ha [] x rfl
        have hy : (Table.keys y).Nodup := hb [] y rfl
        have hkept : overridden x (prunedEntries y) = overridden x y := by
          refine overridden_prunedEntries hx hy fun k v w hv hw => ?_
          have hbelow := h.below hw
          rw [hv] at hbelow
          exact ih (k, w) (Table.mem_of_get? hw) (ha.below hv) (hb.below hw) hbelow
        have hnew : added x (prunedEntries y) = added x y := by
          refine added_prunedEntries hy fun k w hv hw => ?_
          have hbelow := h.below hw
          rw [hv] at hbelow
          exact pruned_eq_self (hb.below hw) hbelow
        rw [pruned, mergeValue_dict, mergeValue_dict, merge, merge, hkept, hnew]
      | _ => cases hdict

/-- A node stands in a dictionary. -/
theorem hasDict_of_node {place : List String} {key : String} {node : Value}
    (h : nodeAt? (place ++ [key]) a = some node) : hasDict place a = true := by
  induction place generalizing a with
  | nil =>
    cases a with
    | dict x => rfl
    | _ => cases h
  | cons k place ih =>
    cases a with
    | dict x =>
      cases hx : Table.get? x k with
      | some v =>
        rw [hasDict_below hx]
        exact ih ((nodeAt?_below hx _).symm.trans h)
      | none =>
        rw [List.cons_append, nodeAt?, hx] at h
        cases h
    | _ => cases h

/-- **A null that is not covered is seen in the merged layer**, and it is none of the lower one. -/
theorem covers_iff_nulls_below :
    Covers a b ↔ ∀ place key, nodeAt? (place ++ [key]) (mergeValue a b) = some .null →
      nodeAt? (place ++ [key]) a = some .null := by
  constructor
  · intro h place key hnode
    rcases (null_mergeValue place key a b).mp hnode with ⟨-, hold⟩ | ⟨hnew, hheld⟩
    · exact hold
    · exact nomatch hheld.symm.trans (h place key hnew)
  · intro h place key hnode
    cases hheld : hasDict place a with
    | true => rfl
    | false =>
      have hold := h place key ((null_mergeValue place key a b).mpr (.inr ⟨hnode, hheld⟩))
      exact hheld.symm.trans (hasDict_of_node hold)

/-- **Leaving the nulls out makes no difference exactly if they are covered.** -/
theorem mergeValue_pruned_iff (ha : Distinct a) (hb : Distinct b) (hnull : b ≠ .null) :
    mergeValue a b = mergeValue a (pruned b) ↔ Covers a b := by
  constructor
  · intro heq
    refine covers_iff_nulls_below.mpr fun place key hnode => ?_
    rw [heq] at hnode
    rcases (null_mergeValue place key a (pruned b)).mp hnode with ⟨-, hold⟩ | ⟨hnew, -⟩
    · exact hold
    · exact absurd hnew (nullFree_pruned hb hnull _)
  · intro h
    exact (mergeValue_pruned ha hb h).symm

/-! ## Nulls among the settings -/

/-- A null comes through layers without nulls where these are silent. -/
theorem null_mergeAll {above below : List (List (String × Value))} (h : ∀ layer ∈ above, NullFree (.dict layer))
    (place : List String) (key : String) :
    nodeAt? (place ++ [key]) (.dict (mergeAll (above ++ below))) = some .null ↔
      (∀ layer ∈ above, isSilent (place ++ [key]) (.dict layer) = true) ∧
        nodeAt? (place ++ [key]) (.dict (mergeAll below)) = some .null := by
  induction above with
  | nil => simp
  | cons layer above ih =>
    have hmerge : Value.dict (mergeAll (layer :: above ++ below)) =
        mergeValue (.dict (mergeAll (above ++ below))) (.dict layer) := (mergeValue_dict _ _).symm
    have hfree : nodeAt? (place ++ [key]) (.dict layer) ≠ some .null := h layer List.mem_cons_self _
    rw [hmerge, null_mergeValue, ih fun l hl => h l (List.mem_cons_of_mem layer hl), List.forall_mem_cons]
    simp [hfree, and_assoc]

theorem mergeEntry_none_eq (w? : Option Value) : mergeEntry none w? = w?.bind fun w => if w = .null then none else w := by
  cases w? with
  | none => rfl
  | some w => cases w <;> simp [mergeEntry]

/-- The lowest layer keeps its dictionaries. -/
theorem hasDict_merge_nil (place : List String) : hasDict place (.dict (merge [] x)) = hasDict place (.dict x) := by
  cases place with
  | nil => rfl
  | cons k place =>
    rw [hasDict, hasDict, nodeAt?, nodeAt?, get?_merge, Table.get?_nil, mergeEntry_none_eq]
    cases Table.get? x k with
    | none => rfl
    | some w =>
      by_cases hnull : w = .null
      · subst hnull
        exact (hasDict_of_plain rfl place).symm
      · simp [hnull]

/-- **The nulls that the defaults and the client leave to be seen.** -/
theorem null_lower_layers (client defaults : List (String × Value)) (place : List String) (key : String) :
    nodeAt? (place ++ [key]) (.dict (mergeAll [client, defaults])) = some .null ↔
      nodeAt? (place ++ [key]) (.dict client) = some .null ∧ hasDict place (.dict defaults) = false ∨
        isSilent (place ++ [key]) (.dict client) = true ∧
          nodeAt? (place ++ [key]) (.dict defaults) = some .null ∧ place ≠ [] := by
  have hlowest : nodeAt? (place ++ [key]) (.dict (merge [] defaults)) = some .null ↔
      nodeAt? (place ++ [key]) (.dict defaults) = some .null ∧ place ≠ [] := by
    rw [← mergeValue_dict, null_mergeValue]
    cases place with
    | nil => simp [hasDict, nodeAt?, Value.isDict]
    | cons k place => simp [hasDict, nodeAt?]
  have hmerge : Value.dict (mergeAll [client, defaults]) = mergeValue (.dict (merge [] defaults)) (.dict client) :=
    (mergeValue_dict _ _).symm
  rw [hmerge, null_mergeValue, hlowest, hasDict_merge_nil]
  exact Or.comm

end Settings

namespace Config

open EditorService.Settings

/-- **Nulls are forgotten exactly if they are covered.** Merging a layer into another is the same as merging it without
its nulls exactly if the other covers them, and exactly then all nulls of the result are the other's. In the settings of a
configuration, a null is one that the client sent where the defaults have no dictionary for it, or one of the defaults of
which the client says nothing; and it is left only where no file says anything. -/
theorem merge_forgets_nulls_iff_covered {x y : List (String × Value)} (hx : Distinct (.dict x))
    (hy : Distinct (.dict y)) :
    (merge x y = merge x (prunedEntries y) ↔ Covers (.dict x) (.dict y)) ∧
    ((∀ place, nodeAt? place (.dict (merge x y)) = some .null → nodeAt? place (.dict x) = some .null) ↔
      Covers (.dict x) (.dict y)) ∧
    ∀ (c : Config) (host : Host) (path : Option String) (l : Layers), c.layers host path = .ok l →
      ∃ settings, c.compute host path = .ok settings ∧ ∀ place key,
        (nodeAt? (place ++ [key]) settings = some .null ↔
          (∀ layer ∈ l.project ++ l.user, isSilent (place ++ [key]) (.dict layer) = true) ∧
            (nodeAt? (place ++ [key]) (.dict l.client) = some .null ∧ hasDict place (.dict l.defaults) = false ∨
              isSilent (place ++ [key]) (.dict l.client) = true ∧
                nodeAt? (place ++ [key]) (.dict l.defaults) = some .null ∧ place ≠ [])) := by
  refine ⟨?_, ?_, fun c host path l hl =>
    ⟨.dict (mergeAll l.ranked), by rw [compute_eq, hl]; rfl, fun place key => ?_⟩⟩
  · have hiff := mergeValue_pruned_iff hx hy nofun
    rwa [pruned, mergeValue_dict, mergeValue_dict, Value.dict.injEq] at hiff
  · rw [covers_iff_nulls_below, mergeValue_dict]
    constructor
    · intro h place key
      exact h (place ++ [key])
    · intro h place
      rcases List.eq_nil_or_concat place with rfl | ⟨front, key, rfl⟩
      · exact nofun
      · rw [List.concat_eq_append]
        exact h front key
  · have hranked : l.ranked = (l.project ++ l.user) ++ [l.client, l.defaults] := (List.append_assoc ..).symm
    have hfree : ∀ layer ∈ l.project ++ l.user, NullFree (.dict layer) := by
      intro layer hlayer
      obtain ⟨s, hrows⟩ := layers_fromRows hl hlayer
      exact hrows.nullFree
    rw [hranked, null_mergeAll hfree, null_lower_layers]

/-- What a client sends for a threshold that is not set. -/
def thresholdUnset : List (String × Value) := [("plugins", .dict [("mccabe", .dict [("threshold", .null)])])]

/-- Defaults with a dictionary for the same plugin. -/
def thresholdByDefault : List (String × Value) := [("plugins", .dict [("mccabe", .dict [("threshold", .int 15)])])]

/-- A configuration without defaults, with the client's threshold. -/
def bareConfig : Config where
  id := 0
  rootUri := "file:///ws"
  rootPath := "/ws"
  initOptions := .null
  processId := .null
  capabilities := .null
  client := .dict thresholdUnset

/-- Over defaults for the plugin the null is forgotten. Without them it is what the plugin reads. -/
theorem merge_forgets_nulls_iff_covered_threshold :
    merge thresholdByDefault thresholdUnset = merge thresholdByDefault (prunedEntries thresholdUnset) ∧
      merge [] thresholdUnset ≠ merge [] (prunedEntries thresholdUnset) ∧
      ∃ settings, bareConfig.compute {} none = .ok settings ∧
        nodeAt? ["plugins", "mccabe", "threshold"] settings = some .null := by
  have hset := merge_forgets_nulls_iff_covered (x := thresholdByDefault) (y := thresholdUnset) (by decide) (by decide)
  obtain ⟨hunset, -, hconfig⟩ := merge_forgets_nulls_iff_covered (x := []) (y := thresholdUnset) (by decide) (by decide)
  have hlayers : bareConfig.layers {} none =
      .ok { defaults := [], client := thresholdUnset, user := [[]], project := [[]] } :=
    Fault.eq_ok_of_toOption (by decide +kernel)
  refine ⟨hset.1.mpr (by decide), fun heq => absurd (hunset.mp heq) (by decide), ?_⟩
  obtain ⟨settings, hsettings, hnulls⟩ := hconfig bareConfig {} none _ hlayers
  exact ⟨settings, hsettings, (hnulls ["plugins", "mccabe"] "threshold").mpr ⟨by decide, .inl ⟨by decide, by decide⟩⟩⟩

end Config

end EditorService

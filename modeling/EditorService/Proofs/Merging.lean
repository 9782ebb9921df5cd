import EditorService.Proofs.Precedence
import EditorService.Value.Read

/-!
# The algebra of merging

Two layers of settings are merged key by key and all the way down. `Precedence` says which layer decides at a place.
Here is what the merged layer is as a whole.

A **node** is whatever the keys of a place lead to, and a **leaf** is a node that is no dictionary. The later layer keeps
all its leaves. The earlier one keeps those that the later one neither names nor hides under a leaf of its own
(`isLeaf_mergeValue`). A layer merged into itself stays as it is (`merge_self`).

Merging is associative as long as layers **conform**: no place is a dictionary in one and a leaf in another. Then the
node of a merged layer is the two nodes merged (`nodeAt?_mergeValue`), so the merged layer conforms as well, and layers
can be merged in any grouping. Without it merging is not associative: a leaf between two dictionaries takes the lower
one away only if it meets it before the upper one comes.

Entries of a dictionary have an order here, and a key could be repeated. `Distinct` says that none is, at any depth. All
equations are equations of entries in their order.
-/

namespace EditorService

namespace Value

/-- Whether a value is a dictionary. -/
def isDict : Value → Bool
  | .dict _ => true
  | _ => false

/-- A law holds of all values if it holds of those that are no dictionaries, and of a dictionary as soon as it holds of
everything in it. -/
@[elab_as_elim]
theorem dictInduction {P : Value → Prop} (leaf : ∀ v, v.isDict = false → P v)
    (dict : ∀ entries : List (String × Value), (∀ e ∈ entries, P e.2) → P (.dict entries)) : ∀ v, P v
  | .dict entries => dict entries fun e he =>
    have : sizeOf e.2 < 1 + sizeOf entries := by
      have hmem : sizeOf e < sizeOf entries := List.sizeOf_lt_of_mem he
      have hpair : sizeOf e = 1 + sizeOf e.1 + sizeOf e.2 := rfl
      omega
    dictInduction leaf dict e.2
  | .null => leaf _ rfl
  | .bool _ => leaf _ rfl
  | .int _ => leaf _ rfl
  | .str _ => leaf _ rfl
  | .list _ => leaf _ rfl

end Value

namespace Settings

variable {a b c v : Value} {entries : List (String × Value)} {k : String}

/-! ## Nodes and leaves -/

/-- **The node at a place**: what its keys lead to. -/
def nodeAt? : List String → Value → Option Value
  | [], v => some v
  | k :: place, .dict entries => (Table.get? entries k).bind (nodeAt? place)
  | _ :: _, _ => none

/-- **A leaf at a place**: a node that is no dictionary. -/
structure IsLeaf (place : List String) (v leaf : Value) : Prop where
  node : nodeAt? place v = some leaf
  plain : leaf.isDict = false

/-- **A value hides a place** when it has a leaf on the way there. -/
def Hides (v : Value) (place : List String) : Prop :=
  ∃ front leaf, front <+: place ∧ front ≠ place ∧ IsLeaf front v leaf

/-- **A value is free of nulls**: no place leads to one. -/
def NullFree (v : Value) : Prop := ∀ place, nodeAt? place v ≠ some .null

/-- **Two values conform**: no place is a dictionary in one and a leaf in the other. -/
def Conform (a b : Value) : Prop :=
  ∀ place x y, nodeAt? place a = some x → nodeAt? place b = some y → x.isDict = y.isDict

/-- **Keys are distinct**, in each dictionary that a place leads to. -/
def Distinct (v : Value) : Prop :=
  ∀ place entries, nodeAt? place v = some (.dict entries) → (Table.keys entries).Nodup

/-! Values are finite. So their nodes can be listed, and the conditions can be tried out. -/

mutual

/-- Every node of a value, with its place. -/
def nodes : Value → List (List String × Value)
  | .dict entries => ([], .dict entries) :: nodesIn entries
  | v => [([], v)]

/-- Every node below some entries. An entry behind another one with the same key is not reached. -/
def nodesIn : List (String × Value) → List (List String × Value)
  | [] => []
  | (k, v) :: rest =>
    (nodes v).map (fun n => (k :: n.1, n.2)) ++ (nodesIn rest).filter fun n => n.1.head? != some k

end

theorem nil_notMem_nodesIn (node : Value) : ([], node) ∉ nodesIn entries := by
  induction entries with
  | nil => simp [nodesIn]
  | cons e rest ih => simp [nodesIn, ih]

theorem mem_nodesIn (h : ∀ e ∈ entries, ∀ place node, (place, node) ∈ nodes e.2 ↔ nodeAt? place e.2 = some node)
    (place : List String) (node : Value) :
    (k :: place, node) ∈ nodesIn entries ↔ nodeAt? (k :: place) (.dict entries) = some node := by
  induction entries with
  | nil => simp [nodesIn, nodeAt?]
  | cons e rest ih =>
    obtain ⟨j, v⟩ := e
    have hrest := ih fun e he => h e (List.mem_cons_of_mem _ he)
    have hv := h (j, v) List.mem_cons_self place node
    simp only [nodeAt?] at hrest
    by_cases hj : j = k
    · simp [nodesIn, nodeAt?, Table.get?, hj, hv]
    · simp [nodesIn, nodeAt?, Table.get?, hj, Ne.symm hj, hrest]

/-- The list of nodes has exactly the nodes. -/
theorem mem_nodes (v : Value) (place : List String) (node : Value) :
    (place, node) ∈ nodes v ↔ nodeAt? place v = some node := by
  induction v using Value.dictInduction generalizing place node with
  | leaf v hv =>
    have hnodes : nodes v = [([], v)] := by
      cases v with
      | dict entries => exact nomatch hv
      | _ => rfl
    cases place with
    | nil => simp [hnodes, nodeAt?, eq_comm]
    | cons k place => cases v <;> simp_all [nodeAt?, Value.isDict]
  | dict entries ih =>
    rw [nodes, List.mem_cons]
    cases place with
    | nil => simp [nil_notMem_nodesIn, nodeAt?, eq_comm]
    | cons k place => simp [mem_nodesIn ih]

instance (place : List String) : Decidable (Hides v place) :=
  decidable_of_iff (∃ n ∈ nodes v, n.1 <+: place ∧ n.1 ≠ place ∧ n.2.isDict = false)
    ⟨fun ⟨n, hn, hfront, hne, hplain⟩ => ⟨n.1, n.2, hfront, hne, (mem_nodes v n.1 n.2).mp hn, hplain⟩,
      fun ⟨front, leaf, hfront, hne, hleaf⟩ =>
        ⟨(front, leaf), (mem_nodes v front leaf).mpr hleaf.node, hfront, hne, hleaf.plain⟩⟩

instance : Decidable (NullFree v) :=
  decidable_of_iff (∀ n ∈ nodes v, n.2 ≠ .null)
    ⟨fun h place hnode => h _ ((mem_nodes v place .null).mpr hnode) rfl,
      fun h n hn heq => h n.1 (heq ▸ (mem_nodes v n.1 n.2).mp hn)⟩

instance : Decidable (Conform a b) :=
  decidable_of_iff (∀ m ∈ nodes a, ∀ n ∈ nodes b, m.1 = n.1 → m.2.isDict = n.2.isDict)
    ⟨fun h place x y hx hy => h _ ((mem_nodes a place x).mpr hx) _ ((mem_nodes b place y).mpr hy) rfl,
      fun h m hm n hn hplace =>
        h m.1 m.2 n.2 ((mem_nodes a m.1 m.2).mp hm) (hplace ▸ (mem_nodes b n.1 n.2).mp hn)⟩

instance : Decidable (Distinct v) :=
  decidable_of_iff (∀ n ∈ nodes v, (Table.keys n.2.parts).Nodup)
    ⟨fun h place entries hnode => h _ ((mem_nodes v place (.dict entries)).mpr hnode), fun h n hn => by
      obtain ⟨place, node⟩ := n
      cases node with
      | dict entries => exact h place entries ((mem_nodes v place _).mp hn)
      | _ => exact List.nodup_nil⟩

theorem nodeAt?_below (h : Table.get? entries k = some v) (place : List String) :
    nodeAt? (k :: place) (.dict entries) = nodeAt? place v := by
  rw [nodeAt?, h, Option.bind_some]

/-- Below a value that is no dictionary there is nothing. -/
theorem nodeAt?_cons_of_plain (h : v.isDict = false) (k : String) (place : List String) :
    nodeAt? (k :: place) v = none := by
  cases v with
  | dict entries => exact nomatch h
  | _ => rfl

theorem NullFree.ne_null (h : NullFree v) : v ≠ .null := fun hv => h [] (congrArg some hv)

theorem NullFree.below (h : NullFree (.dict entries)) (hk : Table.get? entries k = some v) : NullFree v := fun place =>
  nodeAt?_below hk place ▸ h (k :: place)

theorem Distinct.below (h : Distinct (.dict entries)) (hk : Table.get? entries k = some v) : Distinct v :=
  fun place deeper hnode => h (k :: place) deeper (nodeAt?_below hk place ▸ hnode)

theorem Conform.below {entries' : List (String × Value)} {w : Value} (h : Conform (.dict entries) (.dict entries'))
    (hk : Table.get? entries k = some v) (hk' : Table.get? entries' k = some w) : Conform v w :=
  fun place x y hx hy => h (k :: place) x y (nodeAt?_below hk place ▸ hx) (nodeAt?_below hk' place ▸ hy)

theorem Conform.symm (h : Conform a b) : Conform b a := fun place x y hx hy => (h place y x hy hx).symm

theorem Conform.isDict_eq (h : Conform a b) : a.isDict = b.isDict := h [] a b rfl rfl

theorem hides_of_plain (h : v.isDict = false) (k : String) (place : List String) : Hides v (k :: place) :=
  ⟨[], v, List.nil_prefix, nofun, rfl, h⟩

/-- A dictionary hides a place exactly if what it has at the first key hides the rest. -/
theorem hides_dict (place : List String) :
    Hides (.dict entries) (k :: place) ↔ ∃ v, Table.get? entries k = some v ∧ Hides v place := by
  constructor
  · rintro ⟨front, leaf, hfront, hne, hleaf⟩
    cases front with
    | nil =>
      cases hleaf.node
      exact nomatch hleaf.plain
    | cons j front =>
      obtain ⟨rfl, htail⟩ := List.cons_prefix_cons.mp hfront
      cases hk : Table.get? entries j with
      | none =>
        have hnode := hleaf.node
        rw [nodeAt?, hk] at hnode
        exact nomatch hnode
      | some v =>
        exact ⟨v, rfl, front, leaf, htail, fun heq => hne (heq ▸ rfl), nodeAt?_below hk front ▸ hleaf.node,
          hleaf.plain⟩
  · rintro ⟨v, hk, front, leaf, hfront, hne, hleaf⟩
    exact ⟨k :: front, leaf, List.cons_prefix_cons.mpr ⟨rfl, hfront⟩, fun heq => hne (List.cons.inj heq).2,
      (nodeAt?_below hk front).trans hleaf.node, hleaf.plain⟩

/-- Where there are no nulls, the leaves are those by which layers are ranked. -/
theorem leafAt?_eq_some_iff {place : List String} {leaf : Value} (h : NullFree v) :
    leafAt? place v = some leaf ↔ IsLeaf place v leaf := by
  induction place generalizing v with
  | nil =>
    have hnull : v ≠ .null := h.ne_null
    cases v with
    | null => exact absurd rfl hnull
    | dict entries =>
      refine ⟨fun hsome => absurd hsome (by simp [leafAt?]), fun hleaf => ?_⟩
      cases hleaf.node
      exact absurd hleaf.plain (by simp [Value.isDict])
    | _ =>
      refine ⟨fun hsome => ⟨hsome, ?_⟩, fun hleaf => hleaf.node⟩
      cases hsome
      rfl
  | cons k place ih =>
    cases v with
    | dict entries =>
      cases hk : Table.get? entries k with
      | none =>
        simp only [leafAt?, hk, Option.bind_none]
        refine ⟨fun hsome => absurd hsome (by simp), fun hleaf => ?_⟩
        have hnode := hleaf.node
        rw [nodeAt?, hk] at hnode
        cases hnode
      | some w =>
        simp only [leafAt?, hk, Option.bind_some, ih (h.below hk)]
        exact ⟨fun hleaf => ⟨(nodeAt?_below hk place).trans hleaf.node, hleaf.plain⟩,
          fun hleaf => ⟨nodeAt?_below hk place ▸ hleaf.node, hleaf.plain⟩⟩
    | _ => exact ⟨fun hsome => absurd hsome (by simp [leafAt?]), fun hleaf => absurd hleaf.node (by simp [nodeAt?])⟩

/-- Where there are no nulls, a value is silent at a place exactly if it neither has a node there nor hides it. -/
theorem isSilent_iff {place : List String} (h : NullFree v) :
    isSilent place v = true ↔ nodeAt? place v = none ∧ ¬ Hides v place := by
  induction place generalizing v with
  | nil =>
    have hnull : v ≠ .null := h.ne_null
    cases v <;> simp_all [isSilent, nodeAt?]
  | cons k place ih =>
    cases v with
    | null => exact absurd rfl h.ne_null
    | dict entries =>
      rw [hides_dict]
      cases hk : Table.get? entries k with
      | none => simp [isSilent, nodeAt?, hk]
      | some w => simpa [isSilent, nodeAt?, hk] using ih (h.below hk)
    | _ => simpa [isSilent] using fun _ => hides_of_plain rfl k place

/-! ## The leaves of a merged layer -/

theorem mergeValue_of_plain (h : a.isDict = false ∨ b.isDict = false) (hb : b ≠ .null) : mergeValue a b = b := by
  cases a <;> cases b <;> simp_all [mergeValue, Value.isDict]

@[simp] theorem mergeEntry_none_right (a? : Option Value) : mergeEntry a? none = a? := by
  cases a? <;> rfl

/-- What only the later layer has is taken over, unless it is null. -/
theorem mergeEntry_none_left {b? : Option Value} (h : b? ≠ some .null) : mergeEntry none b? = b? := by
  cases b? with
  | none => rfl
  | some w => cases w <;> simp_all [mergeEntry]

/-- Where a merged entry comes from. -/
theorem mergeEntry_eq_some {a? b? : Option Value} {x : Value} (h : mergeEntry a? b? = some x) :
    a? = some x ∨ b? = some x ∨ ∃ v w, a? = some v ∧ b? = some w ∧ mergeValue v w = x := by
  cases b? with
  | none => exact .inl (mergeEntry_none_right a? ▸ h)
  | some w =>
    cases a? with
    | some v => exact .inr (.inr ⟨v, w, rfl, rfl, Option.some.inj h⟩)
    | none => cases w <;> simp_all [mergeEntry]

theorem nullFree_mergeValue (ha : NullFree a) (hb : NullFree b) : NullFree (mergeValue a b) := by
  intro place
  induction place generalizing a b with
  | nil =>
    have hnull : b ≠ .null := hb.ne_null
    cases a <;> cases b <;> simp_all [mergeValue, nodeAt?]
  | cons k place ih =>
    by_cases hplain : a.isDict = false ∨ b.isDict = false
    · rw [mergeValue_of_plain hplain hb.ne_null]
      exact hb (k :: place)
    · cases a with
      | dict earlier =>
        cases b with
        | dict later =>
          rw [mergeValue_dict, nodeAt?]
          cases hentry : Table.get? (merge earlier later) k with
          | none => simp
          | some x =>
            rw [get?_merge] at hentry
            obtain hx | hx | ⟨v, w, hv, hw, rfl⟩ := mergeEntry_eq_some hentry
            · exact ha.below hx place
            · exact hb.below hx place
            · exact ih (ha.below hv) (hb.below hw)
        | _ => simp [Value.isDict] at hplain
      | _ => simp [Value.isDict] at hplain

/-- **The leaves of a merged layer**: all leaves of the later one, and those of the earlier one at places where the later
one has no node and that it does not hide. -/
theorem isLeaf_mergeValue (ha : NullFree a) (hb : NullFree b) (place : List String) (leaf : Value) :
    IsLeaf place (mergeValue a b) leaf ↔
      IsLeaf place b leaf ∨ IsLeaf place a leaf ∧ nodeAt? place b = none ∧ ¬ Hides b place := by
  rw [← leafAt?_eq_some_iff (nullFree_mergeValue ha hb), ← leafAt?_eq_some_iff ha, ← leafAt?_eq_some_iff hb,
    ← isSilent_iff hb, leafAt?_mergeValue]
  cases hsilent : isSilent place b with
  | true => simp [leafAt?_of_isSilent hsilent]
  | false => simp

/-! ## Merging a layer into itself -/

/-- A value with what the later layer has at its key, if anything. -/
def overriddenBy (v : Value) : Option Value → Value
  | some w => mergeValue v w
  | none => v

theorem overridden_eq_map (a b : List (String × Value)) :
    overridden a b = a.map fun e => (e.1, overriddenBy e.2 (Table.get? b e.1)) := by
  induction a with
  | nil => rfl
  | cons e rest ih =>
    obtain ⟨k, v⟩ := e
    rw [overridden, List.map_cons, ih]
    cases Table.get? b k <;> rfl

theorem mergeValue_self (h : Distinct v) : mergeValue v v = v := by
  induction v using Value.dictInduction with
  | leaf v hv => cases v <;> simp_all [mergeValue, Value.isDict]
  | dict entries ih =>
    have hnodup : (Table.keys entries).Nodup := h [] entries rfl
    have hadded : added entries entries = [] := by
      refine List.filter_eq_nil_iff.mpr fun e he => ?_
      simp [Table.has, Table.get?_of_mem hnodup he]
    have hsame : overridden entries entries = entries := by
      rw [overridden_eq_map]
      refine (List.map_congr_left fun e he => ?_).trans (List.map_id entries)
      have hk : Table.get? entries e.1 = some e.2 := Table.get?_of_mem hnodup he
      rw [hk, overriddenBy, ih e he (h.below hk), id_eq]
    rw [mergeValue_dict, merge, hadded, hsame, List.append_nil]

/-- **A layer merged into itself stays as it is**, nulls included. -/
theorem merge_self (h : Distinct (.dict entries)) : merge entries entries = entries := by
  have hvalue := mergeValue_self h
  rw [mergeValue_dict] at hvalue
  exact Value.dict.inj hvalue

/-! ## Merging in another grouping -/

section Grouping

variable {x y z : List (String × Value)}

theorem get?_ne_null (h : NullFree (.dict y)) (k : String) : Table.get? y k ≠ some .null := fun hk =>
  (h.below hk).ne_null rfl

theorem added_eq_filter (h : NullFree (.dict y)) : added x y = y.filter fun e => !Table.has x e.1 :=
  List.filter_congr fun e _ => by simp [get?_ne_null h e.1]

theorem has_merge (h : NullFree (.dict y)) (k : String) :
    Table.has (merge x y) k = (Table.has x k || Table.has y k) := by
  rw [Table.has, Table.has, Table.has, get?_merge]
  cases Table.get? x k with
  | some v => cases Table.get? y k <;> rfl
  | none =>
    cases hk : Table.get? y k with
    | none => rfl
    | some w => rw [mergeEntry_none_left (hk ▸ get?_ne_null h k), Option.isSome_none, Bool.false_or]

/-- The entries of the lowest layer, overridden twice. -/
theorem overridden_overridden (hz : NullFree (.dict z))
    (hvalues : ∀ e ∈ x, ∀ v w, Table.get? y e.1 = some v → Table.get? z e.1 = some w →
      mergeValue (mergeValue e.2 v) w = mergeValue e.2 (mergeValue v w)) :
    overridden (overridden x y) z = overridden x (merge y z) := by
  rw [overridden_eq_map x y, overridden_eq_map, overridden_eq_map, List.map_map]
  refine List.map_congr_left fun e he => ?_
  simp only [Function.comp_apply, get?_merge]
  congr 1
  cases hy : Table.get? y e.1 with
  | none =>
    rw [mergeEntry_none_left (get?_ne_null hz e.1)]
    rfl
  | some v =>
    cases hz' : Table.get? z e.1 with
    | none => rfl
    | some w => exact hvalues e he v w hy hz'

/-- The entries that the lowest layer does not have. -/
theorem added_merge (hy : NullFree (.dict y)) (hz : NullFree (.dict z)) :
    added x (merge y z) = overridden (added x y) z ++ added (merge x y) z := by
  have hmerge : NullFree (.dict (merge y z)) := mergeValue_dict y z ▸ nullFree_mergeValue hy hz
  rw [added_eq_filter hmerge, added_eq_filter hy, added_eq_filter hz, merge, List.filter_append, added_eq_filter hz,
    List.filter_filter, overridden_eq_map, overridden_eq_map, List.filter_map]
  congr 1
  refine List.filter_congr fun e _ => ?_
  rw [has_merge hy, Bool.not_or]

theorem mergeValue_assoc (ha : Distinct a) (hb : NullFree b) (hc : NullFree c) (hab : Conform a b) (hbc : Conform b c)
    (hac : Conform a c) : mergeValue (mergeValue a b) c = mergeValue a (mergeValue b c) := by
  induction a using Value.dictInduction generalizing b c with
  | leaf a hplain =>
    have hb' : b.isDict = false := hab.isDict_eq ▸ hplain
    rw [mergeValue_of_plain (.inl hplain) hb.ne_null, mergeValue_of_plain (.inl hb') hc.ne_null,
      mergeValue_of_plain (.inl hplain) hc.ne_null]
  | dict x ih =>
    cases b with
    | dict y =>
      cases c with
      | dict z =>
        have hnodup : (Table.keys x).Nodup := ha [] x rfl
        have hvalues : ∀ e ∈ x, ∀ v w, Table.get? y e.1 = some v → Table.get? z e.1 = some w →
            mergeValue (mergeValue e.2 v) w = mergeValue e.2 (mergeValue v w) := by
          intro e he v w hv hw
          have hk : Table.get? x e.1 = some e.2 := Table.get?_of_mem hnodup he
          exact ih e he (ha.below hk) (hb.below hv) (hc.below hw) (hab.below hk hv) (hbc.below hv hw) (hac.below hk hw)
        have hsplit : overridden (merge x y) z = overridden (overridden x y) z ++ overridden (added x y) z := by
          rw [overridden_eq_map, overridden_eq_map (overridden x y), overridden_eq_map (added x y), merge,
            List.map_append]
        simp only [mergeValue_dict]
        rw [merge, hsplit, overridden_overridden hc hvalues, List.append_assoc, ← added_merge hb hc, ← merge]
      | _ => exact absurd hac.isDict_eq (by simp [Value.isDict])
    | _ => exact absurd hab.isDict_eq (by simp [Value.isDict])

/-- **The node of a merged layer** is the two nodes merged, where layers conform. -/
theorem nodeAt?_mergeValue (hab : Conform a b) (hb : NullFree b) (place : List String) :
    nodeAt? place (mergeValue a b) = mergeEntry (nodeAt? place a) (nodeAt? place b) := by
  induction place generalizing a b with
  | nil => rfl
  | cons k place ih =>
    cases hplain : a.isDict with
    | false =>
      have hb' : b.isDict = false := hab.isDict_eq ▸ hplain
      rw [mergeValue_of_plain (.inl hplain) hb.ne_null, nodeAt?_cons_of_plain hplain, nodeAt?_cons_of_plain hb']
      rfl
    | true =>
      cases a with
      | dict x =>
        cases b with
        | dict y =>
          rw [mergeValue_dict, nodeAt?, get?_merge, nodeAt?, nodeAt?]
          cases hy : Table.get? y k with
          | none => simp only [mergeEntry_none_right, Option.bind_none]
          | some w =>
            cases hx : Table.get? x k with
            | none =>
              rw [mergeEntry_none_left (hy ▸ get?_ne_null hb k)]
              exact (mergeEntry_none_left (hb.below hy place)).symm
            | some v => exact ih (hab.below hx hy) (hb.below hy)
        | _ => exact nomatch hab.isDict_eq
      | _ => exact nomatch hplain

theorem isDict_mergeValue (h : b ≠ .null) : (mergeValue a b).isDict = b.isDict := by
  cases a <;> cases b <;> simp_all [mergeValue, Value.isDict]

theorem Conform.mergeValue (hab : Conform a b) (hb : NullFree b) (hac : Conform a c) (hbc : Conform b c) :
    Conform (mergeValue a b) c := by
  intro place x y hx hy
  rw [nodeAt?_mergeValue hab hb] at hx
  obtain hx | hx | ⟨v, w, hv, hw, rfl⟩ := mergeEntry_eq_some hx
  · exact hac place x y hx hy
  · exact hbc place x y hx hy
  · rw [isDict_mergeValue fun h => hb place (h ▸ hw)]
    exact hbc place w y hw hy

theorem nodup_merge (hx : (Table.keys x).Nodup) (hy : (Table.keys y).Nodup) : (Table.keys (merge x y)).Nodup := by
  have hkept : Table.keys (overridden x y) = Table.keys x := by
    rw [overridden_eq_map, Table.keys, List.map_map]
    rfl
  rw [merge, Table.keys, List.map_append, List.nodup_append]
  refine ⟨by rwa [← Table.keys, hkept], hy.sublist (List.filter_sublist.map Prod.fst), ?_⟩
  rintro k hold j hnew rfl
  obtain ⟨e, he, rfl⟩ := List.mem_map.mp hnew
  have hhas : Table.has x e.1 = true := (Table.mem_keys_iff x e.1).mp (hkept ▸ hold)
  have habsent := (List.mem_filter.mp he).2
  simp [hhas] at habsent

theorem Distinct.mergeValue (ha : Distinct a) (hb : Distinct b) (hab : Conform a b) (hfree : NullFree b) :
    Distinct (mergeValue a b) := by
  intro place entries hnode
  rw [nodeAt?_mergeValue hab hfree] at hnode
  obtain hold | hnew | ⟨v, w, hv, hw, hvalue⟩ := mergeEntry_eq_some hnode
  · exact ha place entries hold
  · exact hb place entries hnew
  · have hdict : w.isDict = true := by
      rw [← isDict_mergeValue (a := v) fun h => hfree place (h ▸ hw), hvalue]
      rfl
    have hdict' : v.isDict = true := (hab place v w hv hw).trans hdict
    cases v with
    | dict old =>
      cases w with
      | dict new =>
        rw [mergeValue_dict] at hvalue
        cases hvalue
        exact nodup_merge (ha place old hv) (hb place new hw)
      | _ => exact nomatch hdict
    | _ => exact nomatch hdict'

/-- **Layers in harmony**: free of nulls, with distinct keys, and no two of them disagree on what is a dictionary. -/
structure Harmony (layers : List (List (String × Value))) : Prop where
  nullFree : ∀ x ∈ layers, NullFree (.dict x)
  distinct : ∀ x ∈ layers, Distinct (.dict x)
  conform : ∀ x ∈ layers, ∀ y ∈ layers, Conform (.dict x) (.dict y)

instance (layers : List (List (String × Value))) : Decidable (Harmony layers) :=
  decidable_of_iff ((∀ x ∈ layers, NullFree (.dict x)) ∧ (∀ x ∈ layers, Distinct (.dict x)) ∧
      ∀ x ∈ layers, ∀ y ∈ layers, Conform (.dict x) (.dict y))
    ⟨fun h => ⟨h.1, h.2.1, h.2.2⟩, fun h => ⟨h.nullFree, h.distinct, h.conform⟩⟩

namespace Harmony

variable {layers : List (List (String × Value))}

theorem fewer {chosen : List (List (String × Value))} (h : Harmony layers) (hchosen : chosen ⊆ layers) :
    Harmony chosen where
  nullFree x hx := h.nullFree x (hchosen hx)
  distinct x hx := h.distinct x (hchosen hx)
  conform x hx y hy := h.conform x (hchosen hx) y (hchosen hy)

/-- Layers in harmony stay so when some of them are merged. -/
theorem merged (h : Harmony layers) :
    NullFree (.dict (mergeAll layers)) ∧ Distinct (.dict (mergeAll layers)) ∧
      ∀ z, (∀ y ∈ layers, Conform (.dict y) (.dict z)) → Conform (.dict (mergeAll layers)) (.dict z) := by
  induction layers with
  | nil =>
    refine ⟨?_, ?_, ?_⟩
    · rintro (_ | ⟨k, place⟩) <;> exact nofun
    · rintro (_ | ⟨k, place⟩) entries hnode
      · cases hnode
        exact List.nodup_nil
      · exact nomatch hnode
    · rintro z - (_ | ⟨k, place⟩) v w hv hw
      · cases hv
        cases hw
        rfl
      · exact nomatch hv
  | cons x layers ih =>
    obtain ⟨hfree, hdistinct, hconform⟩ := ih (h.fewer (List.subset_cons_self x layers))
    have hx : x ∈ x :: layers := List.mem_cons_self
    have hmerged : Conform (.dict (mergeAll layers)) (.dict x) :=
      hconform x fun y hy => h.conform y (List.mem_cons_of_mem x hy) x hx
    have hvalue : Value.dict (mergeAll (x :: layers)) = mergeValue (.dict (mergeAll layers)) (.dict x) :=
      (mergeValue_dict _ _).symm
    rw [hvalue]
    refine ⟨nullFree_mergeValue hfree (h.nullFree x hx), hdistinct.mergeValue (h.distinct x hx) hmerged (h.nullFree x hx),
      fun z hz => hmerged.mergeValue (h.nullFree x hx) (hconform z fun y hy => hz y (List.mem_cons_of_mem x hy))
        (hz x hx)⟩

end Harmony

theorem merge_nil (x : List (String × Value)) : merge x [] = x := by
  have hsame : overridden x [] = x := by
    rw [overridden_eq_map]
    exact List.map_id x
  rw [merge, hsame]
  exact List.append_nil x

/-- **Layers can be merged in groups.** -/
theorem mergeAll_append {above below : List (List (String × Value))} (h : Harmony (above ++ below)) :
    mergeAll (above ++ below) = merge (mergeAll below) (mergeAll above) := by
  induction above with
  | nil => exact (merge_nil _).symm
  | cons x above ih =>
    have hx : x ∈ x :: above ++ below := List.mem_cons_self
    have hrest : Harmony (above ++ below) := h.fewer (List.subset_cons_self x _)
    obtain ⟨-, hdistinct, hconform⟩ := (hrest.fewer (List.subset_append_right above below)).merged
    obtain ⟨hfree, -, hconform'⟩ := (hrest.fewer (List.subset_append_left above below)).merged
    have hbelow : ∀ y ∈ x :: above ++ below, Conform (.dict (mergeAll below)) (.dict y) := fun y hy =>
      hconform y fun z hz => h.conform z (List.mem_append_right _ hz) y hy
    have hgroups : Conform (.dict (mergeAll below)) (.dict (mergeAll above)) :=
      (hconform' (mergeAll below) fun y hy =>
        (hbelow y (List.mem_cons_of_mem x (List.mem_append_left below hy))).symm).symm
    have hupper : Conform (.dict (mergeAll above)) (.dict x) :=
      hconform' x fun y hy => h.conform y (List.mem_cons_of_mem x (List.mem_append_left below hy)) x hx
    have hassoc := mergeValue_assoc hdistinct hfree (h.nullFree x hx) hgroups hupper (hbelow x hx)
    simp only [mergeValue_dict, Value.dict.injEq] at hassoc
    calc mergeAll (x :: above ++ below) = merge (mergeAll (above ++ below)) x := rfl
      _ = merge (merge (mergeAll below) (mergeAll above)) x := by rw [ih hrest]
      _ = merge (mergeAll below) (merge (mergeAll above) x) := hassoc

/-- **Merging is deep and right-biased, a layer merged into itself stays, and grouping does not matter.** The first part
holds of any two layers without nulls, the second of every layer, and the others of layers that do not disagree on
what is a dictionary. -/
theorem merge_right_biased_idempotent_associative :
    (∀ x y, NullFree (.dict x) → NullFree (.dict y) → ∀ place leaf,
      IsLeaf place (.dict (merge x y)) leaf ↔
        IsLeaf place (.dict y) leaf ∨
          IsLeaf place (.dict x) leaf ∧ nodeAt? place (.dict y) = none ∧ ¬ Hides (.dict y) place) ∧
      (∀ x, Distinct (.dict x) → merge x x = x) ∧
      (∀ x y z, Harmony [x, y, z] → merge (merge x y) z = merge x (merge y z)) ∧
      ∀ above below, Harmony (above ++ below) →
        mergeAll (above ++ below) = merge (mergeAll below) (mergeAll above) := by
  refine ⟨fun x y hx hy place leaf => ?_, fun x hx => merge_self hx, fun x y z h => ?_, fun above below h =>
    mergeAll_append h⟩
  · rw [← mergeValue_dict]
    exact isLeaf_mergeValue hx hy place leaf
  · have hassoc := mergeValue_assoc (h.distinct x (by simp)) (h.nullFree y (by simp)) (h.nullFree z (by simp))
      (h.conform x (by simp) y (by simp)) (h.conform y (by simp) z (by simp)) (h.conform x (by simp) z (by simp))
    simpa only [mergeValue_dict, Value.dict.injEq] using hassoc

/-- Defaults of a linter with an option that is not set. -/
def unsetLength : List (String × Value) :=
  [("plugins", .dict [("pycodestyle", .dict [("enabled", .bool true), ("maxLineLength", .null)])])]

/-- A linter that is off unless someone wants it. -/
def pylintOff : List (String × Value) := [("plugins", .dict [("pylint", .dict [("enabled", .bool false)])])]

/-- What a client sends about another linter. -/
def clientLength : List (String × Value) :=
  [("plugins", .dict [("pycodestyle", .dict [("maxLineLength", .int 80)])])]

/-- What a project says about both. -/
def projectChoice : List (String × Value) :=
  [("plugins", .dict [("pylint", .dict [("enabled", .bool true)]),
    ("pycodestyle", .dict [("maxLineLength", .int 100)])])]

/-- A leaf that the later layer leaves alone, a layer with a null merged into itself, and three layers in both
groupings. -/
theorem merge_right_biased_idempotent_associative_linters :
    IsLeaf ["plugins", "pylint", "enabled"] (.dict (merge pylintOff clientLength)) (.bool false) ∧
      merge unsetLength unsetLength = unsetLength ∧
      merge (merge pylintOff clientLength) projectChoice = merge pylintOff (merge clientLength projectChoice) ∧
      mergeAll ([projectChoice, clientLength] ++ [pylintOff]) =
        merge (mergeAll [pylintOff]) (mergeAll [projectChoice, clientLength]) := by
  obtain ⟨hleaves, hself, hassoc, hgroups⟩ := merge_right_biased_idempotent_associative
  refine ⟨?_, hself _ (by decide), hassoc _ _ _ (by decide), hgroups _ _ (by decide)⟩
  exact (hleaves _ _ (by decide) (by decide) _ _).mpr (.inr ⟨⟨by decide, rfl⟩, by decide, by decide⟩)

/-- A leaf between two dictionaries: the grouping decides whether the lower one comes through. -/
example :
    let x := [("pylint", Value.dict [("enabled", .bool false)])]
    let y := [("pylint", Value.bool true)]
    let z := [("pylint", Value.dict [("args", .list [])])]
    merge (merge x y) z ≠ merge x (merge y z) := by decide

end Grouping

end Settings

end EditorService

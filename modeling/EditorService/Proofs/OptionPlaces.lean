import EditorService.Proofs.FileLayers
import EditorService.Proofs.PathPlaces

/-!
# Options, each at its place

A section of options is read row by row, and what a row gives is written into one nested dictionary. Rows share the upper
keys of their places, so each of them may find dictionaries that others made. None of them spoils what another one wrote
as long as places are **apart**: no place is another one, or goes on behind it.

* **Places** (`leads_iff`): a dotted place leads to another one exactly if its keys stand at the front of the other's.
* **One write** (`Nest.setAt`): a place without a leaf on the way can be written, and all leaves elsewhere stay.
* **Nested dictionaries** (`Nest.alike`): two of them with the same leaves are alike.

**The law** (`options_nest_in_any_order`): if places are apart and every option that is present converts, the settings are
a nested dictionary whose leaves are the values of the options, each at the place of its row. The order of the rows does
not matter.
-/

namespace EditorService

namespace Settings

variable {config config' v : Value} {keys place : List String}

/-! ## Dotted places -/

/-- **A dotted place leads to another one**: it is the same, or the other one goes on behind it with a dot. -/
def Leads (a b : String) : Prop := a = b ∨ ∃ rest, b = a ++ "." ++ rest

/-- **Two places are apart** if neither leads to the other. -/
def Apart (a b : String) : Prop := ¬ Leads a b ∧ ¬ Leads b a

theorem placeKeys_ne_nil (place : String) : placeKeys place ≠ [] := fun h =>
  Text.split_ne_nil '.' place.toList (List.map_eq_nil_iff.mp h)

/-- **A place leads to another one exactly if its keys stand at the front of the other's.** -/
theorem leads_iff {a b : String} : Leads a b ↔ placeKeys a <+: placeKeys b := by
  constructor
  · rintro (rfl | ⟨rest, rfl⟩)
    · exact List.prefix_refl _
    · have htext : (a ++ "." ++ rest).toList = a.toList ++ '.' :: rest.toList := by simp
      rw [placeKeys, placeKeys, htext, Text.split_append, List.map_append]
      exact List.prefix_append _ _
  · rintro ⟨more, hmore⟩
    obtain ⟨front, back, hsplit, hfront, rfl⟩ := List.map_eq_append_iff.mp hmore.symm
    have hpieces : front = Text.split '.' a.toList :=
      List.map_injective_iff.mpr (fun _ _ h => String.ofList_inj.mp h) hfront
    have hglued := Text.join_split '.' b.toList
    rw [hsplit, hpieces] at hglued
    by_cases hback : back = []
    · left
      rw [hback, List.append_nil, Text.join_split] at hglued
      exact String.toList_inj.mp hglued
    · right
      rw [Text.join_append (Text.split_ne_nil _ _) hback, Text.join_split] at hglued
      refine ⟨String.ofList (Text.join ['.'] back), String.toList_inj.mp ?_⟩
      rw [← hglued]
      simp

instance (a b : String) : Decidable (Leads a b) := decidable_of_iff _ leads_iff.symm

instance (a b : String) : Decidable (Apart a b) := inferInstanceAs (Decidable (¬ Leads a b ∧ ¬ Leads b a))

/-! ## One write -/

/-- A place can be written if no leaf is on the way. -/
theorem exists_setAt (h : ¬ Hides config keys) (v : Value) : ∃ config', setAt keys config v = .ok config' := by
  induction keys generalizing config with
  | nil => exact ⟨v, rfl⟩
  | cons key rest ih =>
    cases config with
    | dict entries =>
      have hinner : ¬ Hides ((Table.get? entries key).getD (.dict [])) rest := by
        cases hentry : Table.get? entries key with
        | some w => exact fun hhides => h ((hides_dict rest).mpr ⟨w, hentry, hhides⟩)
        | none =>
          -- The dictionary is made for this write, and has no leaf.
          cases rest with
          | nil =>
            rintro ⟨front, leaf, hfront, hne, -⟩
            exact hne (List.prefix_nil.mp hfront)
          | cons next rest =>
            rw [Option.getD_none, hides_dict]
            rintro ⟨w, hw, -⟩
            cases hw
      obtain ⟨inner, hwritten⟩ := ih hinner
      exact ⟨_, by rw [setAt_cons, hwritten]; rfl⟩
    | _ => exact absurd (hides_of_plain rfl key rest) h

/-- What a write into a dictionary makes of it. -/
theorem setAt_cons_eq_ok {key : String} {rest : List String} (h : setAt (key :: rest) config v = .ok config') :
    ∃ entries inner, config = .dict entries ∧ setAt rest ((Table.get? entries key).getD (.dict [])) v = .ok inner ∧
      config' = .dict (Table.put entries key inner) := by
  cases config with
  | dict entries =>
    rw [setAt_cons] at h
    cases hinner : setAt rest ((Table.get? entries key).getD (.dict [])) v with
    | error f =>
      rw [hinner] at h
      cases h
    | ok inner =>
      rw [hinner] at h
      cases h
      exact ⟨entries, inner, rfl, hinner, rfl⟩
  | _ => simp [setAt] at h

/-- What was written is there. -/
theorem nodeAt?_setAt_self (h : setAt keys config v = .ok config') : nodeAt? keys config' = some v := by
  induction keys generalizing config config' with
  | nil =>
    cases h
    rfl
  | cons key rest ih =>
    obtain ⟨entries, inner, rfl, hinner, rfl⟩ := setAt_cons_eq_ok h
    exact (nodeAt?_below (Table.get?_put_self entries key inner) rest).trans (ih hinner)

/-- **A write leaves other places as they are**: those that neither lead to its place nor go on behind it. -/
theorem nodeAt?_setAt_of_apart (h : setAt keys config v = .ok config') (hbehind : ¬ keys <+: place)
    (hbefore : ¬ place <+: keys) : nodeAt? place config' = nodeAt? place config := by
  induction keys generalizing config config' place with
  | nil => exact absurd List.nil_prefix hbehind
  | cons key rest ih =>
    obtain ⟨entries, inner, rfl, hinner, rfl⟩ := setAt_cons_eq_ok h
    cases place with
    | nil => exact absurd List.nil_prefix hbefore
    | cons k place =>
      rw [nodeAt?, nodeAt?, Table.get?_put]
      by_cases hk : k = key
      · subst hk
        rw [if_pos rfl, Option.bind_some, ih hinner (fun h => hbehind (List.cons_prefix_cons.mpr ⟨rfl, h⟩))
          (fun h => hbefore (List.cons_prefix_cons.mpr ⟨rfl, h⟩))]
        cases hentry : Table.get? entries k with
        | some w => rfl
        | none =>
          cases place with
          | nil => exact absurd (List.cons_prefix_cons.mpr ⟨rfl, List.nil_prefix⟩) hbefore
          | cons next place => rfl
      · rw [if_neg hk]

theorem distinct_of_plain (h : v.isDict = false) : Distinct v := by
  intro place entries hnode
  cases place with
  | nil =>
    cases hnode
    cases h
  | cons k place =>
    rw [nodeAt?_cons_of_plain h] at hnode
    cases hnode

theorem distinct_dict_iff {entries : List (String × Value)} :
    Distinct (.dict entries) ↔ (Table.keys entries).Nodup ∧ ∀ k w, Table.get? entries k = some w → Distinct w := by
  constructor
  · exact fun h => ⟨h [] entries rfl, fun k w hw => h.below hw⟩
  · rintro ⟨hkeys, hbelow⟩ place deeper hnode
    cases place with
    | nil =>
      cases hnode
      exact hkeys
    | cons k place =>
      obtain ⟨w, hw, hnode⟩ := Option.bind_eq_some_iff.mp hnode
      exact hbelow k w hw place deeper hnode

theorem Distinct.setAt (hconfig : Distinct config) (hv : Distinct v) (h : Settings.setAt keys config v = .ok config') :
    Distinct config' := by
  induction keys generalizing config config' with
  | nil =>
    cases h
    exact hv
  | cons key rest ih =>
    obtain ⟨entries, inner, rfl, hinner, rfl⟩ := setAt_cons_eq_ok h
    obtain ⟨hkeys, hbelow⟩ := distinct_dict_iff.mp hconfig
    have hold : Distinct ((Table.get? entries key).getD (.dict [])) := by
      cases hentry : Table.get? entries key with
      | some w => exact hbelow key w hentry
      | none => exact distinct_dict_iff.mpr ⟨List.nodup_nil, fun k w hw => by cases hw⟩
    refine distinct_dict_iff.mpr ⟨Table.nodup_put hkeys key inner, fun k w hw => ?_⟩
    rw [Table.get?_put] at hw
    split at hw
    · cases hw
      exact ih hold hinner
    · exact hbelow k w hw

/-! ## Nested dictionaries -/

/-- **A nested dictionary with given leaves.** Keys are distinct at every depth, the leaves are those that are given, and
below the top there is a dictionary only on the way to one of them. -/
structure Nest (written : List String → Value → Prop) (config : Value) : Prop where
  isDict : config.isDict = true
  distinct : Distinct config
  leaf : ∀ place leaf, IsLeaf place config leaf ↔ written place leaf
  inner : ∀ place node, nodeAt? place config = some node → node.isDict = true →
    place = [] ∨ ∃ keys leaf, written keys leaf ∧ place <+: keys

theorem nest_empty : Nest (fun _ _ => False) (.dict []) where
  isDict := rfl
  distinct := distinct_dict_iff.mpr ⟨List.nodup_nil, fun k w hw => by cases hw⟩
  leaf := by
    intro place leaf
    refine ⟨fun hleaf => ?_, False.elim⟩
    cases place with
    | nil =>
      cases hleaf.node
      cases hleaf.plain
    | cons k place => cases hleaf.node
  inner := by
    intro place node hnode _
    cases place with
    | nil => exact .inl rfl
    | cons k place => cases hnode

theorem Nest.congr {written written' : List String → Value → Prop} (h : Nest written config)
    (hsame : ∀ place leaf, written place leaf ↔ written' place leaf) : Nest written' config where
  isDict := h.isDict
  distinct := h.distinct
  leaf := fun place leaf => (h.leaf place leaf).trans (hsame place leaf)
  inner := by
    intro place node hnode hdict
    refine (h.inner place node hnode hdict).imp_right ?_
    rintro ⟨keys, leaf, hwritten, hfront⟩
    exact ⟨keys, leaf, (hsame keys leaf).mp hwritten, hfront⟩

/-- **One more leaf.** If its place is apart from those of all leaves, it can be written, and the others stay. -/
theorem Nest.setAt {written : List String → Value → Prop} (h : Nest written config) (hkeys : keys ≠ [])
    (hplain : v.isDict = false) (hapart : ∀ place leaf, written place leaf → ¬ keys <+: place ∧ ¬ place <+: keys) :
    ∃ config', Settings.setAt keys config v = .ok config' ∧
      Nest (fun place leaf => written place leaf ∨ place = keys ∧ leaf = v) config' := by
  have hfree : ¬ Hides config keys := by
    rintro ⟨front, leaf, hfront, -, hleaf⟩
    exact (hapart front leaf ((h.leaf front leaf).mp hleaf)).2 hfront
  obtain ⟨config', hset⟩ := exists_setAt hfree v
  refine ⟨config', hset, ?_, h.distinct.setAt (distinct_of_plain hplain) hset, fun place leaf => ⟨fun hleaf => ?_, ?_⟩,
    fun place node hnode hdict => ?_⟩
  · obtain ⟨key, rest, rfl⟩ := List.exists_cons_of_ne_nil hkeys
    obtain ⟨entries, inner, -, -, rfl⟩ := setAt_cons_eq_ok hset
    rfl
  · rcases nodeAt?_setAt hplain hset hleaf.node with hold | hnew | ⟨-, hdict⟩
    · exact .inl ((h.leaf place leaf).mp ⟨hold, hleaf.plain⟩)
    · exact .inr hnew
    · rw [hleaf.plain] at hdict
      cases hdict
  · rintro (hwritten | ⟨rfl, rfl⟩)
    · obtain ⟨hbehind, hbefore⟩ := hapart place leaf hwritten
      have hleaf := (h.leaf place leaf).mpr hwritten
      exact ⟨(nodeAt?_setAt_of_apart hset hbehind hbefore).trans hleaf.node, hleaf.plain⟩
    · exact ⟨nodeAt?_setAt_self hset, hplain⟩
  · rcases nodeAt?_setAt hplain hset hnode with hold | ⟨-, rfl⟩ | ⟨⟨hfront, -⟩, -⟩
    · refine (h.inner place node hold hdict).imp_right ?_
      rintro ⟨other, leaf, hwritten, hfront⟩
      exact ⟨other, leaf, .inl hwritten, hfront⟩
    · rw [hplain] at hdict
      cases hdict
    · exact .inr ⟨keys, v, .inr ⟨rfl, rfl⟩, hfront⟩

theorem alikeEntries_of_get? {as bs : List (String × Value)}
    (h : ∀ e ∈ as, ∃ w, Table.get? bs e.1 = some w ∧ Value.alike e.2 w = true) : Value.alikeEntries as bs = true := by
  induction as with
  | nil => rfl
  | cons e rest ih =>
    obtain ⟨k, x⟩ := e
    obtain ⟨w, hw, hlike⟩ := h (k, x) List.mem_cons_self
    simp only [Value.alikeEntries, hw, hlike, Bool.true_and]
    exact ih fun e he => h e (List.mem_cons_of_mem _ he)

theorem isLeaf_below {entries : List (String × Value)} {k : String} {w leaf : Value} (h : Table.get? entries k = some w) :
    IsLeaf (k :: place) (.dict entries) leaf ↔ IsLeaf place w leaf :=
  ⟨fun hleaf => ⟨(nodeAt?_below h place).symm.trans hleaf.node, hleaf.plain⟩,
    fun hleaf => ⟨(nodeAt?_below h place).trans hleaf.node, hleaf.plain⟩⟩

/-- A key of a dictionary leads to a leaf or to a dictionary. -/
theorem mem_keys_iff_node (entries : List (String × Value)) (k : String) :
    k ∈ Table.keys entries ↔
      (∃ leaf, IsLeaf [k] (.dict entries) leaf) ∨ ∃ inner, nodeAt? [k] (.dict entries) = some (.dict inner) := by
  rw [Table.mem_keys_iff, Option.isSome_iff_exists]
  constructor
  · rintro ⟨w, hw⟩
    cases hplain : w.isDict with
    | false => exact .inl ⟨w, nodeAt?_below hw [], hplain⟩
    | true =>
      cases w with
      | dict inner => exact .inr ⟨inner, nodeAt?_below hw []⟩
      | _ => cases hplain
  · rintro (⟨leaf, hleaf⟩ | ⟨inner, hinner⟩)
    · obtain ⟨w, hw, -⟩ := Option.bind_eq_some_iff.mp hleaf.node
      exact ⟨w, hw⟩
    · obtain ⟨w, hw, -⟩ := Option.bind_eq_some_iff.mp hinner
      exact ⟨w, hw⟩

/-- **Values are alike if the same places lead to the same leaves**, and the same places to dictionaries. -/
theorem alike_of_nodes {a b : Value} (ha : Distinct a) (hb : Distinct b)
    (hleaf : ∀ place leaf, IsLeaf place a leaf ↔ IsLeaf place b leaf)
    (hdict : ∀ place, (∃ es, nodeAt? place a = some (.dict es)) ↔ ∃ es, nodeAt? place b = some (.dict es))
    (hself : ∀ place leaf, IsLeaf place a leaf → leaf.alike leaf = true) : a.alike b = true := by
  induction a using Value.dictInduction generalizing b with
  | leaf a hplain =>
    have hsame : IsLeaf [] b a := (hleaf [] a).mp ⟨rfl, hplain⟩
    cases hsame.node
    exact hself [] a ⟨rfl, hplain⟩
  | dict as ih =>
    obtain ⟨bs, hbs⟩ := (hdict []).mp ⟨as, rfl⟩
    cases hbs
    have hkeys : ∀ k, k ∈ Table.keys as ↔ k ∈ Table.keys bs := by
      intro k
      rw [mem_keys_iff_node, mem_keys_iff_node]
      exact or_congr (exists_congr fun leaf => hleaf [k] leaf) (hdict [k])
    have hlength : as.length = bs.length := by
      have hperm : (Table.keys as).Perm (Table.keys bs) :=
        (List.perm_ext_iff_of_nodup (ha [] as rfl) (hb [] bs rfl)).mpr hkeys
      simpa [Table.keys] using hperm.length_eq
    simp only [Value.alike, hlength, beq_self_eq_true, Bool.true_and]
    refine alikeEntries_of_get? fun e he => ?_
    have hx : Table.get? as e.1 = some e.2 := Table.get?_of_mem (ha [] as rfl) he
    obtain ⟨w, hw⟩ : ∃ w, Table.get? bs e.1 = some w := by
      rw [← Option.isSome_iff_exists, ← Table.mem_keys_iff, ← hkeys]
      exact List.mem_map_of_mem he
    refine ⟨w, hw, ih e he (ha.below hx) (hb.below hw) (fun place leaf => ?_) (fun place => ?_)
      fun place leaf hbelow => ?_⟩
    · have hsame := hleaf (e.1 :: place) leaf
      rwa [isLeaf_below hx, isLeaf_below hw] at hsame
    · have hsame := hdict (e.1 :: place)
      simpa only [nodeAt?_below hx, nodeAt?_below hw] using hsame
    · exact hself (e.1 :: place) leaf ((isLeaf_below hx).mpr hbelow)

/-- What is on the way to a node is a dictionary. -/
theorem exists_dict_on_way {front : List String} {node : Value} (hnode : nodeAt? keys config = some node)
    (hfront : front <+: keys) (hne : front ≠ keys) : ∃ es, nodeAt? front config = some (.dict es) := by
  induction front generalizing keys config with
  | nil =>
    obtain ⟨key, rest, rfl⟩ := List.exists_cons_of_ne_nil (Ne.symm hne)
    cases config with
    | dict es => exact ⟨es, rfl⟩
    | _ => cases hnode
  | cons k front ih =>
    obtain ⟨more, rfl⟩ := hfront
    cases config with
    | dict es =>
      obtain ⟨w, hw, hbelow⟩ := Option.bind_eq_some_iff.mp hnode
      obtain ⟨inner, hinner⟩ := ih hbelow (List.prefix_append front more) fun h => hne (congrArg (k :: ·) h)
      exact ⟨inner, (nodeAt?_below hw front).trans hinner⟩
    | _ => cases hnode

section

variable {written : List String → Value → Prop}

/-- The dictionaries of a nested dictionary are the top and what is on the way to its leaves. -/
theorem Nest.dict_iff (h : Nest written config) (place : List String) :
    (∃ es, nodeAt? place config = some (.dict es)) ↔
      place = [] ∨ ∃ keys leaf, written keys leaf ∧ place <+: keys ∧ place ≠ keys := by
  constructor
  · rintro ⟨es, hes⟩
    refine (h.inner place _ hes rfl).imp_right ?_
    rintro ⟨keys, leaf, hwritten, hfront⟩
    refine ⟨keys, leaf, hwritten, hfront, ?_⟩
    rintro rfl
    have hleaf := (h.leaf place leaf).mpr hwritten
    cases hes.symm.trans hleaf.node
    cases hleaf.plain
  · rintro (rfl | ⟨keys, leaf, hwritten, hfront, hne⟩)
    · have hdict := h.isDict
      cases config with
      | dict es => exact ⟨es, rfl⟩
      | _ => cases hdict
    · exact exists_dict_on_way ((h.leaf keys leaf).mpr hwritten).node hfront hne

/-- **Nested dictionaries with the same leaves are alike.** -/
theorem Nest.alike {a b : Value} (ha : Nest written a) (hb : Nest written b)
    (hself : ∀ place leaf, written place leaf → leaf.alike leaf = true) : a.alike b = true := by
  refine alike_of_nodes ha.distinct hb.distinct (fun place leaf => ?_) (fun place => ?_) fun place leaf hleaf => ?_
  · rw [ha.leaf, hb.leaf]
  · rw [ha.dict_iff, hb.dict_iff]
  · exact hself place leaf ((ha.leaf place leaf).mp hleaf)

end

/-! ## Rows -/

/-- **What a file says about a row**: the value of its option, read as the kind of the row. The row's own spelling counts
wherever it is present, and the one with underscores where only that one is. -/
inductive Says (ini : Ini) (name : String) (row : OptionRow) (v : Value) : Prop where
  | own (h : ini.hasOption name row.option = true) (hread : readOption ini name row.option row.kind = .ok v)
  | underscored (h : ini.hasOption name row.option = false)
      (hunderscored : ini.hasOption name (underscored row.option) = true)
      (hread : readOption ini name (Settings.underscored row.option) row.kind = .ok v)

/-- A row's option is present in one of its two spellings. -/
def Present (ini : Ini) (name : String) (row : OptionRow) : Prop :=
  ini.hasOption name row.option = true ∨ ini.hasOption name (underscored row.option) = true

section

variable {ini : Ini} {name : String} {row : OptionRow} {rows : List OptionRow}

theorem says_iff : Says ini name row v ↔ optionValue? ini name row = .ok (some v) := by
  have hmap : ∀ option, (readOption ini name option row.kind).map some = .ok (some v) ↔
      readOption ini name option row.kind = .ok v := by
    intro option
    cases readOption ini name option row.kind <;> simp [Except.map]
  unfold optionValue?
  cases hown : ini.hasOption name row.option with
  | true =>
    simp only [List.find?_cons, hown, hmap]
    refine ⟨fun h => ?_, fun h => .own hown h⟩
    cases h with
    | own _ hread => exact hread
    | underscored h => rw [hown] at h; cases h
  | false =>
    cases hunder : ini.hasOption name (underscored row.option) with
    | true =>
      simp only [List.find?_cons, hown, hunder, hmap]
      refine ⟨fun h => ?_, fun h => .underscored hown hunder h⟩
      cases h with
      | own h => rw [hown] at h; cases h
      | underscored _ _ hread => exact hread
    | false =>
      simp only [List.find?_cons, List.find?_nil, hown, hunder]
      refine ⟨fun h => ?_, fun h => by cases h⟩
      cases h with
      | own h => rw [hown] at h; cases h
      | underscored _ h => rw [hunder] at h; cases h

theorem optionValue?_of_not_present (h : ¬ Present ini name row) : optionValue? ini name row = .ok none := by
  have hown : ini.hasOption name row.option = false := Bool.eq_false_iff.mpr fun hown => h (.inl hown)
  have hunder : ini.hasOption name (underscored row.option) = false := Bool.eq_false_iff.mpr fun hunder => h (.inr hunder)
  simp only [optionValue?, List.find?_cons, List.find?_nil, hown, hunder]

/-- An option that is present and can be read has a value. -/
theorem exists_says {v? : Option Value} (hpresent : Present ini name row) (h : optionValue? ini name row = .ok v?) :
    ∃ v, Says ini name row v := by
  cases v? with
  | some v => exact ⟨v, says_iff.mpr h⟩
  | none =>
    unfold optionValue? at h
    split at h
    · obtain ⟨v, -, hv⟩ := Fault.map_eq_ok.mp h
      cases hv
    · next hnone =>
      simp only [List.find?_eq_none, List.mem_cons, List.not_mem_nil, or_false, forall_eq_or_imp, forall_eq] at hnone
      exact absurd hpresent (not_or.mpr hnone)

/-- The value of an option is like itself: it holds no dictionary. -/
theorem Says.alike_self (h : Says ini name row v) : v.alike v = true := by
  have htexts : ∀ texts : List String, Value.alikeList (texts.map .str) (texts.map .str) = true := by
    intro texts
    induction texts with
    | nil => rfl
    | cons s rest ih => simp [Value.alikeList, Value.alike, ih]
  have hread : ∀ option, readOption ini name option row.kind = .ok v → v.alike v = true := by
    intro option hvalue
    unfold readOption at hvalue
    split at hvalue
    · obtain ⟨b, -, rfl⟩ := Fault.map_eq_ok.mp hvalue
      simp [Value.alike]
    · obtain ⟨n, -, rfl⟩ := Fault.map_eq_ok.mp hvalue
      simp [Value.alike]
    · obtain ⟨s, -, rfl⟩ := Fault.map_eq_ok.mp hvalue
      simp [Value.alike]
    · obtain ⟨s, -, rfl⟩ := Fault.map_eq_ok.mp hvalue
      simp [Value.ofTexts, Value.alike, htexts]
    · cases hvalue
  cases h with
  | own _ h => exact hread _ h
  | underscored _ _ h => exact hread _ h

/-- What one row does to the settings so far. -/
def addRow (ini : Ini) (name : String) (config : Value) (row : OptionRow) : Except Fault Value := do
  match ← optionValue? ini name row with
  | some v => setPlace config row.place v
  | none => return config

theorem fromOptions_eq (ini : Ini) (name : String) (rows : List OptionRow) :
    fromOptions ini name rows = rows.foldlM (addRow ini name) (.dict []) := rfl

/-- What rows have written: the values that a file gives to them, each at the place of its row. -/
def Written (ini : Ini) (name : String) (rows : List OptionRow) (place : List String) (v : Value) : Prop :=
  ∃ row ∈ rows, place = placeKeys row.place ∧ Says ini name row v

/-- **One row.** It adds the value of its option, if that is present, to what was written before. -/
theorem Nest.addRow {written : List String → Value → Prop} (h : Nest written config)
    (hapart : ∀ place leaf, written place leaf → ¬ placeKeys row.place <+: place ∧ ¬ place <+: placeKeys row.place)
    (hconverts : Present ini name row → ∃ v, Says ini name row v) :
    ∃ config', Settings.addRow ini name config row = .ok config' ∧
      Nest (fun place leaf => written place leaf ∨ Written ini name [row] place leaf) config' := by
  by_cases hpresent : Present ini name row
  · obtain ⟨v, hsays⟩ := hconverts hpresent
    have hvalue := says_iff.mp hsays
    obtain ⟨hplain, hnull⟩ := optionValue?_eq_some hvalue
    obtain ⟨config', hset, hnest⟩ := h.setAt (placeKeys_ne_nil row.place) hplain hapart
    have hplace : setPlace config row.place v = .ok config' := by
      rw [setPlace, if_neg (by simpa using hnull), hset]
    refine ⟨config', by rw [Settings.addRow, hvalue]; exact hplace, hnest.congr fun place leaf => or_congr_right ?_⟩
    constructor
    · rintro ⟨rfl, rfl⟩
      exact ⟨row, List.mem_singleton_self row, rfl, hsays⟩
    · rintro ⟨_, hrow, rfl, hleaf⟩
      cases List.mem_singleton.mp hrow
      cases (says_iff.mp hleaf).symm.trans hvalue
      exact ⟨rfl, rfl⟩
  · have hvalue := optionValue?_of_not_present hpresent
    refine ⟨config, by rw [Settings.addRow, hvalue]; rfl, h.congr fun place leaf => (or_iff_left ?_).symm⟩
    rintro ⟨_, hrow, -, hleaf⟩
    cases List.mem_singleton.mp hrow
    cases (says_iff.mp hleaf).symm.trans hvalue

/-- **All rows**, one after the other, on top of what was written before. -/
theorem Nest.addRows {written : List String → Value → Prop} (h : Nest written config)
    (hbefore : ∀ row ∈ rows, ∀ place leaf, written place leaf →
      ¬ placeKeys row.place <+: place ∧ ¬ place <+: placeKeys row.place)
    (hapart : rows.Pairwise fun r s => Apart r.place s.place)
    (hconverts : ∀ row ∈ rows, Present ini name row → ∃ v, Says ini name row v) :
    ∃ config', rows.foldlM (Settings.addRow ini name) config = .ok config' ∧
      Nest (fun place leaf => written place leaf ∨ Written ini name rows place leaf) config' := by
  induction rows generalizing config written with
  | nil => exact ⟨config, rfl, h.congr fun place leaf => (or_iff_left (by rintro ⟨_, hrow, -⟩; cases hrow)).symm⟩
  | cons row rest ih =>
    obtain ⟨hrow, hrest⟩ := List.pairwise_cons.mp hapart
    obtain ⟨next, hnext, hnest⟩ := h.addRow (hbefore row List.mem_cons_self) (hconverts row List.mem_cons_self)
    have hlater : ∀ other ∈ rest, ∀ place leaf, written place leaf ∨ Written ini name [row] place leaf →
        ¬ placeKeys other.place <+: place ∧ ¬ place <+: placeKeys other.place := by
      rintro other hother place leaf (hwritten | ⟨_, hmem, rfl, -⟩)
      · exact hbefore other (List.mem_cons_of_mem row hother) place leaf hwritten
      · cases List.mem_singleton.mp hmem
        obtain ⟨hforth, hback⟩ := hrow other hother
        exact ⟨fun hfront => hback (leads_iff.mpr hfront), fun hfront => hforth (leads_iff.mpr hfront)⟩
    obtain ⟨config', hrun, hall⟩ := ih hnest hlater hrest fun r hr => hconverts r (List.mem_cons_of_mem row hr)
    refine ⟨config', by rw [List.foldlM_cons, hnext]; exact hrun, hall.congr fun place leaf => ?_⟩
    simp only [Written, List.mem_cons, List.not_mem_nil, or_false, exists_eq_or_imp, exists_eq_left, or_assoc]

theorem nest_fromOptions (hapart : rows.Pairwise fun r s => Apart r.place s.place)
    (hconverts : ∀ row ∈ rows, Present ini name row → ∃ v, Says ini name row v) :
    ∃ config, fromOptions ini name rows = .ok config ∧ Nest (Written ini name rows) config := by
  obtain ⟨config, hrun, hnest⟩ := nest_empty.addRows (fun _ _ _ _ => False.elim) hapart hconverts
  rw [fromOptions_eq]
  exact ⟨config, hrun, hnest.congr fun place leaf => iff_of_eq (false_or _)⟩

end

/-- The places of the rows of a source are apart. -/
theorem apart_rows (s : Source) : s.rows.Pairwise fun r s => Apart r.place s.place := by
  cases s <;> decide +kernel

/-- A section with an option in two spellings, of which only the row's own one is a number. -/
def twoSpellings : Ini :=
  { sections := [("flake8", [("max_line_length", "wide"), ("max-line-length", "80"), ("ignore", "E1, W2")])] }

end Settings

end EditorService

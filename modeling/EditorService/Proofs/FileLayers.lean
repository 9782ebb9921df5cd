import EditorService.Proofs.Merging

/-!
# What settings files can say

A row of a source gives an option one place in the settings, so a settings file can only write at the places of the rows
of its source. Whatever the file holds, what it stands for is told by these rows (`FromRows`): a node of it is either a
value that is no null, at the place of a row, or a dictionary on the way to such a place.

This is a fact about the rows and about how values are written at places. Nothing is assumed about the file beyond that it
can be read (`layers_fromRows`).
-/

namespace EditorService

namespace Settings

/-! ## Writing at a place -/

theorem setAt_cons (key : String) (rest : List String) (entries : List (String × Value)) (v : Value) :
    setAt (key :: rest) (.dict entries) v =
      (setAt rest ((Table.get? entries key).getD (.dict [])) v).map fun inner =>
        .dict (Table.put entries key inner) := by
  cases rest with
  | nil => rfl
  | cons next rest =>
    simp only [setAt]
    cases setAt (next :: rest) ((Table.get? entries key).getD (.dict [])) v <;> rfl

/-- **The nodes after a write**: those from before, the value that was written, and dictionaries on the way to it. -/
theorem nodeAt?_setAt {keys : List String} {config config' v : Value} (hplain : v.isDict = false)
    (h : setAt keys config v = .ok config') {place : List String} {node : Value}
    (hnode : nodeAt? place config' = some node) :
    nodeAt? place config = some node ∨ place = keys ∧ node = v ∨
      (place <+: keys ∧ place ≠ keys) ∧ node.isDict = true := by
  induction keys generalizing config config' place with
  | nil =>
    cases h
    cases place with
    | nil => exact .inr (.inl ⟨rfl, (Option.some.inj hnode).symm⟩)
    | cons k place =>
      rw [nodeAt?_cons_of_plain hplain] at hnode
      cases hnode
  | cons key rest ih =>
    cases config with
    | dict entries =>
      rw [setAt_cons] at h
      cases hinner : setAt rest ((Table.get? entries key).getD (.dict [])) v with
      | error f =>
        rw [hinner] at h
        cases h
      | ok inner =>
        rw [hinner] at h
        cases h
        cases place with
        | nil =>
          cases hnode
          exact .inr (.inr ⟨⟨List.nil_prefix, (List.cons_ne_nil key rest).symm⟩, rfl⟩)
        | cons k place =>
          rw [nodeAt?, Table.get?_put] at hnode
          by_cases hk : k = key
          · subst hk
            rw [if_pos rfl] at hnode
            rcases ih hinner hnode with hold | ⟨rfl, rfl⟩ | ⟨⟨hfront, hne⟩, hdict⟩
            · cases hentry : Table.get? entries k with
              | some w =>
                rw [hentry] at hold
                exact .inl ((nodeAt?_below hentry place).trans hold)
              | none =>
                -- The dictionary was made for this write, and was empty before.
                rw [hentry] at hold
                cases place with
                | nil =>
                  cases hold
                  refine .inr (.inr ⟨⟨List.prefix_append [k] rest, fun heq => ?_⟩, rfl⟩)
                  cases List.cons.inj heq |>.2
                  cases hinner
                  cases hnode
                  cases hplain
                | cons next place => cases hold
            · exact .inr (.inl ⟨rfl, rfl⟩)
            · refine .inr (.inr ⟨⟨List.cons_prefix_cons.mpr ⟨rfl, hfront⟩, fun heq => ?_⟩, hdict⟩)
              exact hne (List.cons.inj heq).2
          · rw [if_neg hk] at hnode
            exact .inl hnode
    | _ => simp [setAt] at h

/-! ## Rows -/

/-- **What rows can give rise to.** A node is no null and stands at the place of a row, or it is a dictionary on the way
to one. -/
def FromRows (rows : List OptionRow) (v : Value) : Prop :=
  ∀ place node, nodeAt? place v = some node →
    (node.isDict = false ∧ node ≠ .null ∧ ∃ row ∈ rows, place = placeKeys row.place) ∨
      node.isDict = true ∧ (place = [] ∨ ∃ row ∈ rows, place <+: placeKeys row.place ∧ place ≠ placeKeys row.place)

theorem FromRows.nullFree {rows : List OptionRow} {v : Value} (h : FromRows rows v) : NullFree v := by
  intro place hnode
  rcases h place .null hnode with ⟨-, hnull, -⟩ | ⟨hdict, -⟩
  · exact hnull rfl
  · exact nomatch hdict

/-- The value of an option is no dictionary and no null. -/
theorem optionValue?_eq_some {ini : Ini} {name : String} {row : OptionRow} {v : Value}
    (h : optionValue? ini name row = .ok (some v)) : v.isDict = false ∧ v ≠ .null := by
  have hmap : ∀ {α : Type} {read : Except Fault α} {build : α → Value},
      (read.map build).map some = .ok (some v) → ∃ a, build a = v := by
    intro α read build hread
    cases read with
    | error f => exact nomatch hread
    | ok a => exact ⟨a, Option.some.inj (Except.ok.inj hread)⟩
  have hread : ∀ option, (readOption ini name option row.kind).map some = .ok (some v) →
      v.isDict = false ∧ v ≠ .null := by
    intro option hvalue
    cases hkind : row.kind with
    | unknown kind =>
      rw [hkind] at hvalue
      exact nomatch hvalue
    | _ =>
      rw [hkind] at hvalue
      obtain ⟨a, rfl⟩ := hmap hvalue
      exact ⟨rfl, nofun⟩
  unfold optionValue? at h
  split at h
  · exact hread _ h
  · exact nomatch h

/-- **One row keeps to the rows.** -/
theorem FromRows.setPlace {rows : List OptionRow} {row : OptionRow} {config config' v : Value} (h : FromRows rows config)
    (hrow : row ∈ rows) (hplain : v.isDict = false) (hset : Settings.setPlace config row.place v = .ok config') :
    FromRows rows config' := by
  unfold Settings.setPlace at hset
  split at hset
  · cases hset
    exact h
  · next hnull =>
    intro place node hnode
    rcases nodeAt?_setAt hplain hset hnode with hold | ⟨rfl, rfl⟩ | ⟨hfront, hdict⟩
    · exact h place node hold
    · exact .inl ⟨hplain, fun heq => hnull (beq_iff_eq.mpr heq), row, hrow, rfl⟩
    · exact .inr ⟨hdict, .inr ⟨row, hrow, hfront⟩⟩

/-- What every step of a fold keeps, the fold keeps. -/
theorem foldlM_keeps {σ α : Type} (good : σ → Prop) {step : σ → α → Except Fault σ} {xs : List α}
    (hstep : ∀ s x s', x ∈ xs → good s → step s x = .ok s' → good s') {s t : σ} (hs : good s)
    (h : xs.foldlM step s = .ok t) : good t := by
  induction xs generalizing s with
  | nil =>
    cases h
    exact hs
  | cons x xs ih =>
    rw [List.foldlM_cons] at h
    obtain ⟨next, hnext, hrest⟩ := Fault.bind_eq_ok.mp h
    refine ih (fun s y s' hy => hstep s y s' (List.mem_cons_of_mem x hy)) ?_ hrest
    exact hstep s x next List.mem_cons_self hs hnext

/-- **Options give rise to what their rows allow**, whatever the file says. -/
theorem fromRows_fromOptions {ini : Ini} {name : String} {rows : List OptionRow} {v : Value}
    (h : fromOptions ini name rows = .ok v) : FromRows rows v := by
  refine foldlM_keeps (FromRows rows) ?_ ?_ h
  · intro config row next hrow hconfig hnext
    obtain ⟨value?, hvalue, hnext⟩ := Fault.bind_eq_ok.mp hnext
    cases value? with
    | none =>
      cases hnext
      exact hconfig
    | some value => exact hconfig.setPlace hrow (optionValue?_eq_some hvalue).1 hnext
  · intro place node hnode
    cases place with
    | nil =>
      cases hnode
      exact .inr ⟨rfl, .inl rfl⟩
    | cons k place => cases hnode

/-! ## Sources -/

namespace Source

theorem fromRows_settingsIn {s : Source} {files : FileTree} {paths : List String} {v : Value}
    (h : s.settingsIn files paths = .ok v) : FromRows s.rows v := by
  obtain ⟨ini, -, hv⟩ := Fault.bind_eq_ok.mp h
  exact fromRows_fromOptions hv

theorem fromRows_userSettings {s : Source} {host : Host} {v : Value} (h : s.userSettings host = .ok v) :
    FromRows s.rows v := by
  cases s with
  | base => exact nomatch h
  | _ => exact fromRows_settingsIn h

theorem fromRows_projectSettings {s : Source} {host : Host} {root path : String} {v : Value}
    (h : s.projectSettings host root path = .ok v) : FromRows s.rows v := by
  cases s with
  | base => exact nomatch h
  | _ =>
    obtain ⟨found, -, hv⟩ := Fault.bind_eq_ok.mp h
    exact fromRows_settingsIn hv

end Source

end Settings

namespace Config

open EditorService.Settings (Source Layers FromRows)

variable {c : Config} {given : Source → Except Fault Value}

theorem sourceLayer_eq_some {name : Value} {layer : List (String × Value)}
    (h : c.sourceLayer given name = .ok (some layer)) : ∃ s, given s = .ok (.dict layer) := by
  obtain ⟨source?, -, h⟩ := Fault.bind_eq_ok.mp h
  cases source? with
  | none => exact nomatch h
  | some source =>
    obtain ⟨v, hv, h⟩ := Fault.bind_eq_ok.mp h
    obtain ⟨entries, hentries, h⟩ := Fault.bind_eq_ok.mp h
    cases h
    cases v with
    | dict _ =>
      cases hentries
      exact ⟨source, hv⟩
    | _ => exact nomatch hentries

/-- Each layer of a list of names is what one source gives. -/
theorem mem_sourceLayers {names : List Value} {layers : List (List (String × Value))}
    (h : c.sourceLayers given names = .ok layers) {layer : List (String × Value)} (hlayer : layer ∈ layers) :
    ∃ s, given s = .ok (.dict layer) := by
  induction names generalizing layers with
  | nil =>
    cases h
    exact nomatch hlayer
  | cons name rest ih =>
    obtain ⟨below, hbelow, h⟩ := Fault.bind_eq_ok.mp h
    obtain ⟨layer?, hlayer?, h⟩ := Fault.bind_eq_ok.mp h
    cases h
    rcases List.mem_append.mp hlayer with htop | hrest
    · cases layer? with
      | none => exact nomatch htop
      | some top =>
        cases List.mem_singleton.mp htop
        exact sourceLayer_eq_some hlayer?
    · exact ih hbelow hrest

/-- **The layers of files keep to the rows of a source.** -/
theorem layers_fromRows {host : Host} {path : Option String} {l : Layers} (h : c.layers host path = .ok l)
    {layer : List (String × Value)} (hlayer : layer ∈ l.project ++ l.user) :
    ∃ s : Source, FromRows s.rows (.dict layer) := by
  obtain ⟨client, -, h⟩ := Fault.bind_eq_ok.mp h
  obtain ⟨names, -, h⟩ := Fault.bind_eq_ok.mp h
  obtain ⟨user, huser, h⟩ := Fault.bind_eq_ok.mp h
  obtain ⟨project, hproject, h⟩ := Fault.bind_eq_ok.mp h
  cases h
  rcases List.mem_append.mp hlayer with hmem | hmem
  · obtain ⟨s, hs⟩ := mem_sourceLayers hproject hmem
    exact ⟨s, Source.fromRows_projectSettings hs⟩
  · obtain ⟨s, hs⟩ := mem_sourceLayers huser hmem
    exact ⟨s, Source.fromRows_userSettings hs⟩

end Config

end EditorService

import EditorService.Config

/-!
# Which layer decides a setting

A place is a list of keys, from the top of a layer down. A layer is silent at a place when a key on the way is missing
or null; otherwise it speaks there, with a leaf or with something that hides every leaf below or above.

Merging is told by the leaves: at each place the later layer decides unless it is silent (`leafAt?_mergeValue`). So the
settings of a configuration hold, at each place, the leaf of the highest layer that speaks there. The project's files
rank highest, and among them the source that the client lists first; the user's files follow in the same order, then
the client, then the plugins' defaults. Where the client ought to rank above the user's files, the places at which that
would make a difference are told exactly (`Layers.Contested`).
-/

namespace EditorService

namespace Settings

/-- **The leaf at a place**: a value that is neither null nor a dictionary. -/
def leafAt? : List String → Value → Option Value
  | [], .null => none
  | [], .dict _ => none
  | [], v => some v
  | k :: place, .dict entries => (Table.get? entries k).bind (leafAt? place)
  | _ :: _, _ => none

/-- **Whether a layer says nothing about a place.** -/
def isSilent : List String → Value → Bool
  | _, .null => true
  | k :: place, .dict entries => (Table.get? entries k).elim true (isSilent place)
  | _, _ => false

/-! ## Merging -/

theorem get?_overridden (a b : List (String × Value)) (k : String) :
    Table.get? (overridden a b) k =
      (Table.get? a k).map fun v => match Table.get? b k with
        | some w => mergeValue v w
        | none => v := by
  induction a with
  | nil => rfl
  | cons e rest ih =>
    obtain ⟨j, v⟩ := e
    by_cases h : j = k
    · subst h
      cases hb : Table.get? b j <;> simp [overridden, Table.get?, hb]
    · simp only [overridden, Table.get?, if_neg h, ih]

/-- What becomes of a key: the value of the earlier layer, if any, with that of the later one. -/
def mergeEntry : Option Value → Option Value → Option Value
  | some v, some w => some (mergeValue v w)
  | some v, none => some v
  | none, some .null => none
  | none, w => w

/-- **What a lookup sees after a merge.** -/
theorem get?_merge (a b : List (String × Value)) (k : String) :
    Table.get? (merge a b) k = mergeEntry (Table.get? a k) (Table.get? b k) := by
  have hadded : Table.get? (added a b) k =
      if !Table.has a k && Table.get? b k != some .null then Table.get? b k else none :=
    Table.get?_filter b (fun j => !Table.has a j && Table.get? b j != some .null) k
  rw [merge, Table.get?_append, get?_overridden, hadded]
  cases ha : Table.get? a k with
  | some v => cases Table.get? b k <;> rfl
  | none =>
    cases hb : Table.get? b k with
    | none => simp [Table.has, ha, mergeEntry]
    | some w => cases w <;> simp [Table.has, ha, mergeEntry]

theorem mergeValue_null (a : Value) : mergeValue a .null = a := by
  cases a <;> simp [mergeValue]

theorem mergeValue_dict (a b : List (String × Value)) : mergeValue (.dict a) (.dict b) = .dict (merge a b) := by
  simp [mergeValue, merge]

/-- What is silent at a place has no leaf there. -/
theorem leafAt?_of_isSilent {place : List String} {v : Value} (h : isSilent place v = true) :
    leafAt? place v = none := by
  induction place generalizing v with
  | nil => cases v <;> simp_all [isSilent, leafAt?]
  | cons k place ih =>
    cases v with
    | dict entries =>
      cases hk : Table.get? entries k with
      | none => simp [leafAt?, hk]
      | some w =>
        have hw : isSilent place w = true := by simpa [isSilent, hk] using h
        simp [leafAt?, hk, ih hw]
    | _ => rfl

/-- The law of merging at one key, from the law below it. -/
theorem leafAt?_mergeEntry {place : List String}
    (hbelow : ∀ a b, leafAt? place (mergeValue a b) = if isSilent place b then leafAt? place a else leafAt? place b)
    (a? b? : Option Value) :
    (mergeEntry a? b?).bind (leafAt? place) =
      if b?.elim true (isSilent place) then a?.bind (leafAt? place) else b?.bind (leafAt? place) := by
  cases b? with
  | none => cases a? <;> simp [mergeEntry]
  | some b =>
    cases a? with
    | some a => exact hbelow a b
    | none =>
      -- Only the later layer has the key, so its value stands as it is; null is the one that is not written.
      cases hsilent : isSilent place b with
      | true =>
        have hleaf : leafAt? place b = none := leafAt?_of_isSilent hsilent
        cases b <;> simp [mergeEntry, hsilent, hleaf]
      | false =>
        cases b with
        | null => simp [isSilent] at hsilent
        | _ => simp [mergeEntry, hsilent]

/-- **The law of merging.** At each place the later value decides, unless it is silent. -/
theorem leafAt?_mergeValue (place : List String) (a b : Value) :
    leafAt? place (mergeValue a b) = if isSilent place b then leafAt? place a else leafAt? place b := by
  induction place generalizing a b with
  | nil =>
    cases b with
    | null => simp [mergeValue_null, isSilent]
    | dict entries => cases a <;> simp [mergeValue, isSilent, leafAt?]
    | _ => cases a <;> simp [mergeValue, isSilent]
  | cons k place ih =>
    cases b with
    | null => simp [mergeValue_null, isSilent]
    | dict later =>
      cases a with
      | dict earlier =>
        rw [mergeValue_dict]
        simp only [leafAt?, isSilent, get?_merge]
        exact leafAt?_mergeEntry ih _ _
      | _ =>
        cases hsilent : isSilent (k :: place) (.dict later) with
        | true => simpa [mergeValue, leafAt?] using leafAt?_of_isSilent hsilent
        | false => simp [mergeValue]
    | _ => cases a <;> simp [mergeValue, isSilent]

/-- **The leaf of the first layer that speaks**, in a list with the highest layer first. -/
def topmost? (place : List String) (layers : List (List (String × Value))) : Option Value :=
  (layers.find? fun layer => !isSilent place (.dict layer)).bind fun layer => leafAt? place (.dict layer)

/-- Layers merged on top of one another, the highest given first. -/
def mergeAll (layers : List (List (String × Value))) : List (String × Value) :=
  layers.foldr (fun layer below => merge below layer) []

/-- **The topmost layer decides.** -/
theorem leafAt?_mergeAll (place : List String) (layers : List (List (String × Value))) :
    leafAt? place (.dict (mergeAll layers)) = topmost? place layers := by
  induction layers with
  | nil => cases place <;> rfl
  | cons layer below ih =>
    have hmerge : Value.dict (mergeAll (layer :: below)) = mergeValue (.dict (mergeAll below)) (.dict layer) :=
      (mergeValue_dict _ _).symm
    rw [hmerge, leafAt?_mergeValue, ih]
    cases hsilent : isSilent place (.dict layer) <;> simp [topmost?, hsilent]

theorem topmost?_append (place : List String) (above below : List (List (String × Value))) :
    topmost? place (above ++ below) =
      if above.all fun layer => isSilent place (.dict layer) then topmost? place below else topmost? place above := by
  induction above with
  | nil => rfl
  | cons layer above ih =>
    cases hsilent : isSilent place (.dict layer) with
    | true => simpa [topmost?, hsilent] using ih
    | false => simp [topmost?, hsilent]

theorem topmost?_cons (place : List String) (layer : List (String × Value)) (below : List (List (String × Value))) :
    topmost? place (layer :: below) =
      if isSilent place (.dict layer) then topmost? place below else leafAt? place (.dict layer) := by
  cases hsilent : isSilent place (.dict layer) <;> simp [topmost?, hsilent]

/-! ## Layers -/

/-- **The layers of a configuration**: the plugins' defaults, what the client sent, and what the files of the user and
of the project give, each source's in the order in which the client lists the sources. -/
structure Layers where
  defaults : List (String × Value)
  client : List (String × Value)
  user : List (List (String × Value))
  project : List (List (String × Value))
  deriving DecidableEq

namespace Layers

/-- **The layers as they rank**, the highest first. -/
def ranked (l : Layers) : List (List (String × Value)) := l.project ++ (l.user ++ [l.client, l.defaults])

/-- The layers with the client above the user's files. -/
def clientFirst (l : Layers) : List (List (String × Value)) := l.project ++ (l.client :: (l.user ++ [l.defaults]))

/-- **A contested place**: the project's files leave it to the client and the user's files, and these disagree. -/
structure Contested (l : Layers) (place : List String) : Prop where
  project : ∀ layer ∈ l.project, isSilent place (.dict layer) = true
  client : isSilent place (.dict l.client) = false
  user : ∃ layer ∈ l.user, isSilent place (.dict layer) = false
  differ : topmost? place l.user ≠ leafAt? place (.dict l.client)

/-- **The two orders differ at the contested places only.** -/
theorem topmost?_clientFirst_iff (l : Layers) (place : List String) :
    topmost? place l.ranked = topmost? place l.clientFirst ↔ ¬ l.Contested place := by
  simp only [ranked, clientFirst, topmost?_append, topmost?_cons]
  cases hproject : l.project.all fun layer => isSilent place (.dict layer) with
  | false =>
    refine ⟨fun _ hcontested => ?_, fun _ => by simp⟩
    have hall : (l.project.all fun layer => isSilent place (.dict layer)) = true :=
      List.all_eq_true.mpr hcontested.project
    cases hproject.symm.trans hall
  | true =>
    cases hclient : isSilent place (.dict l.client) with
    | true =>
      refine ⟨fun _ hcontested => ?_, fun _ => by simp⟩
      cases hcontested.client.symm.trans hclient
    | false =>
      cases huser : l.user.all fun layer => isSilent place (.dict layer) with
      | true =>
        refine ⟨fun _ hcontested => ?_, fun _ => by simp⟩
        obtain ⟨layer, hmem, hspeaks⟩ := hcontested.user
        cases hspeaks.symm.trans (List.all_eq_true.mp huser layer hmem)
      | false =>
        have hspeaker : ∃ layer ∈ l.user, isSilent place (.dict layer) = false := by simpa using huser
        simp only [if_true, Bool.false_eq_true, if_false]
        refine ⟨fun heq hcontested => hcontested.differ heq, fun hnot => ?_⟩
        by_cases heq : topmost? place l.user = leafAt? place (.dict l.client)
        · exact heq
        · exact absurd ⟨List.all_eq_true.mp hproject, hclient, hspeaker, heq⟩ hnot

end Layers

end Settings

namespace Config

open EditorService.Settings (Source Layers merge mergeAll leafAt? topmost? leafAt?_mergeAll)

/-- The layer that a listed name stands for, when there is a source of this name. -/
def sourceLayer (c : Config) (given : Source → Except Fault Value) (name : Value) :
    Except Fault (Option (List (String × Value))) := do
  match ← c.sourceOf? name with
  | some source => return some (← (← given source).entries)
  | none => return none

/-- The layers that listed names stand for, in their order. They are read from the last to the first. -/
def sourceLayers (c : Config) (given : Source → Except Fault Value) :
    List Value → Except Fault (List (List (String × Value)))
  | [] => .ok []
  | name :: rest => do
    let below ← c.sourceLayers given rest
    return (← c.sourceLayer given name).toList ++ below

/-- **The layers of a configuration**, for the document at `path` or for the root of the project. -/
def layers (c : Config) (host : Host) (path : Option String) : Except Fault Layers := do
  let client ← c.client.entries
  let names ← c.listedSources
  let user ← c.sourceLayers (·.userSettings host) names
  let project ← c.sourceLayers (·.projectSettings host c.rootPath (c.searchedFrom path)) names
  return { defaults := c.defaults, client, user, project }

/-- Merging one more name puts its layer on top. -/
theorem mergeSources_singleton (c : Config) (given : Source → Except Fault Value) (name : Value)
    (settings : List (String × Value)) :
    c.mergeSources [name] given settings =
      (c.sourceLayer given name).map fun layer? => layer?.elim settings (merge settings) := by
  simp only [mergeSources, List.reverse_singleton, List.foldlM_cons, List.foldlM_nil, sourceLayer, bind, Except.bind]
  cases c.sourceOf? name with
  | error f => rfl
  | ok source? =>
    cases source? with
    | none => rfl
    | some source =>
      dsimp only
      cases given source with
      | error f => rfl
      | ok v =>
        dsimp only
        cases v.entries <;> rfl

/-- Sources are merged one on top of the other, the first listed on top. -/
theorem mergeSources_eq (c : Config) (given : Source → Except Fault Value) (names : List Value)
    (settings : List (String × Value)) :
    c.mergeSources names given settings =
      (c.sourceLayers given names).map fun layers => layers.foldr (fun layer below => merge below layer) settings := by
  induction names with
  | nil => rfl
  | cons name rest ih =>
    have hcons : c.mergeSources (name :: rest) given settings =
        c.mergeSources rest given settings >>= c.mergeSources [name] given := by
      simp only [mergeSources, List.reverse_cons, List.foldlM_append]
      rfl
    rw [hcons, ih, sourceLayers]
    cases c.sourceLayers given rest with
    | error f => rfl
    | ok below =>
      change c.mergeSources [name] given _ = _
      rw [mergeSources_singleton]
      cases c.sourceLayer given name with
      | error f => rfl
      | ok layer? => cases layer? <;> rfl

/-- **The settings are the layers merged by rank**, and a layer that cannot be read is what a fault comes from. -/
theorem compute_eq (c : Config) (host : Host) (path : Option String) :
    c.compute host path = (c.layers host path).map fun l => .dict (mergeAll l.ranked) := by
  simp only [compute, layers, mergeSources_eq, bind, Except.bind]
  cases c.client.entries with
  | error f => rfl
  | ok client =>
    dsimp only
    cases c.listedSources with
    | error f => rfl
    | ok names =>
      dsimp only
      cases c.sourceLayers (·.userSettings host) names with
      | error f => rfl
      | ok user =>
        dsimp only [Except.map]
        cases c.sourceLayers (·.projectSettings host c.rootPath (c.searchedFrom path)) names with
        | error f => rfl
        | ok project => simp [mergeAll, Layers.ranked]; rfl

/-- **The topmost layer decides every setting.** -/
theorem settings_of_topmost_layer {c : Config} {host : Host} {path : Option String} {l : Layers}
    (h : c.layers host path = .ok l) :
    ∃ settings, c.compute host path = .ok settings ∧ ∀ place,
      leafAt? place settings = topmost? place l.ranked ∧
      (leafAt? place settings = topmost? place l.clientFirst ↔ ¬ l.Contested place) := by
  refine ⟨.dict (mergeAll l.ranked), by rw [compute_eq, h]; rfl, fun place => ?_⟩
  have hleaf : leafAt? place (.dict (mergeAll l.ranked)) = topmost? place l.ranked := leafAt?_mergeAll place l.ranked
  exact ⟨hleaf, by rw [hleaf, l.topmost?_clientFirst_iff]⟩

/-- A configuration of a client that wants lines of 80 characters. -/
def shortLines : Config where
  id := 0
  rootUri := "file:///ws"
  rootPath := "/ws"
  initOptions := .null
  processId := .null
  capabilities := .null
  client := .dict [("plugins", .dict [("pycodestyle", .dict [("maxLineLength", .int 80)])])]

/-- A user whose own file allows 100 characters. -/
def longLines : Host where
  files := { files := [("/home/u/.config/pycodestyle", .text "[pycodestyle]\nmax-line-length = 100\n")] }
  styleFile := "/home/u/.config/pycodestyle"

/-- What the two give rise to. -/
def lineLayers : Layers where
  defaults := []
  client := [("plugins", .dict [("pycodestyle", .dict [("maxLineLength", .int 80)])])]
  user := [[("plugins", .dict [("pycodestyle", .dict [("maxLineLength", .int 100)])])]]
  project := [[]]

/-- The user's file is what counts, although the client has sent another length. -/
theorem settings_of_topmost_layer_user_over_client :
    shortLines.layers longLines none = .ok lineLayers ∧
      lineLayers.Contested ["plugins", "pycodestyle", "maxLineLength"] ∧
      topmost? ["plugins", "pycodestyle", "maxLineLength"] lineLayers.clientFirst = some (.int 80) ∧
      ∃ settings, shortLines.compute longLines none = .ok settings ∧
        leafAt? ["plugins", "pycodestyle", "maxLineLength"] settings = some (.int 100) ∧
        leafAt? ["plugins", "pycodestyle", "maxLineLength"] settings ≠ some (.int 80) := by
  have hread : (shortLines.layers longLines none).toOption = some lineLayers := by decide +kernel
  have hlayers : shortLines.layers longLines none = .ok lineLayers := by
    cases hl : shortLines.layers longLines none with
    | error f => rw [hl] at hread; cases hread
    | ok l => rw [hl] at hread; exact congrArg Except.ok (Option.some.inj hread)
  have hcontested : lineLayers.Contested ["plugins", "pycodestyle", "maxLineLength"] :=
    ⟨by decide, by decide, by decide, by decide⟩
  have hclient : topmost? ["plugins", "pycodestyle", "maxLineLength"] lineLayers.clientFirst = some (.int 80) := by
    decide
  obtain ⟨settings, hsettings, hplaces⟩ := settings_of_topmost_layer hlayers
  have hplace := hplaces ["plugins", "pycodestyle", "maxLineLength"]
  refine ⟨hlayers, hcontested, hclient, settings, hsettings, hplace.1.trans (by decide), fun hshort => ?_⟩
  exact hplace.2.mp (hshort.trans hclient.symm) hcontested

end Config

end EditorService

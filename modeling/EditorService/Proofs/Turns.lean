import EditorService.Proofs.Notices

/-!
# Turns of the service

The service takes turns. In one turn it handles a message of the client, or one of its timers expires. Messages are
taken here as they come: any method with any parameters, so a message may ask for nothing sensible at all.

Two facts hold in all that follows. The service is **equipped**: its layout is sound, and it and each of its workspaces
have a configuration that is there. And a turn that neither starts the service nor brings a folder event is **steady**:
it leaves the layout, the root and the own configuration as they are, and no configuration goes away
(`steady_serve`).
-/

namespace EditorService

namespace Server

/-- **The service is equipped.** -/
structure Equipped (s : Server) : Prop where
  sound : s.layout.Sound
  own : s.ownConfig?.isSome
  each : ∀ {id w}, s.layout.bare id = some w → (s.configAt? w.config).isSome

/-- **From one state to a later one** with the same folders. -/
structure Steady (s t : Server) : Prop where
  layout : s.layout.Sound → t.layout = s.layout
  rootUri : t.rootUri = s.rootUri
  config : t.config = s.config
  configs : ∀ {c}, (s.configAt? c).isSome → (t.configAt? c).isSome

instance : Service.Idle Steady where
  rest _ := ⟨fun _ => rfl, rfl, rfl, fun h => h⟩
  chain hst htu :=
    { layout := fun hs => (htu.layout (by rw [hst.layout hs]; exact hs)).trans (hst.layout hs)
      rootUri := htu.rootUri.trans hst.rootUri
      config := htu.config.trans hst.config
      configs := fun h => htu.configs (hst.configs h) }
  bench _ _ := ⟨fun _ => rfl, rfl, rfl, fun h => h⟩

theorem Equipped.of_steady {s t : Server} (hs : s.Equipped) (h : Steady s t) : t.Equipped where
  sound := by
    rw [h.layout hs.sound]
    exact hs.sound
  own := by
    rw [ownConfig?, h.config]
    exact h.configs hs.own
  each hw := by
    rw [h.layout hs.sound] at hw
    exact h.configs (hs.each hw)

/-- A configuration that is kept under its number is there, and no other one goes away. -/
theorem isSome_configAt?_putConfig {s : Server} {id : Option ConfigId} (c : Config)
    (h : id = some c.id ∨ (s.configAt? id).isSome) : ((s.putConfig c).configAt? id).isSome := by
  cases id with
  | none => simp [configAt?] at h
  | some id =>
    show (Table.get? (Table.put s.configs c.id c) id).isSome
    rw [Table.get?_put]
    split
    · rfl
    · next hne => exact h.resolve_left fun heq => hne (Option.some.inj heq)

theorem steady_putConfig (s : Server) (c : Config) : Steady s (s.putConfig c) :=
  ⟨fun _ => rfl, rfl, rfl, fun h => isSome_configAt?_putConfig c (Or.inr h)⟩

/-- A new workspace with a configuration that is there. -/
theorem each_withFolder {s : Server} (hs : ∀ {id w}, s.layout.bare id = some w → (s.configAt? w.config).isSome)
    (uri : String) {w : Workspace} (hw : (s.configAt? w.config).isSome) {id : WorkspaceId} {v : Workspace}
    (hv : (s.withFolder uri w).layout.bare id = some v) : ((s.withFolder uri w).configAt? v.config).isSome := by
  rw [bare_withFolder] at hv
  split at hv
  · cases hv
    exact hw
  · exact hs hv

end Server

namespace Service

open EditorService.Server

theorem steady_writable : Writable Steady := by
  intro s uri w documents hw _
  refine ⟨fun hs => ?_, rfl, rfl, fun h => h⟩
  obtain ⟨id, hid⟩ := Option.bind_eq_some_iff.mp hw
  exact (putDocuments hid.2 (own_id hs hid.2) documents).1

theorem steady_updateConfig (id : ConfigId) (client : Value) : Moves Steady (updateConfig id client) :=
  moves_updateConfig steady_putConfig id client

theorem steady_newConfig (rootUri : String) (initOptions processId capabilities : Value) :
    Moves Steady (newConfig rootUri initOptions processId capabilities) :=
  moves_newConfig (fun _ _ => ⟨fun _ => rfl, rfl, rfl, fun h => h⟩) steady_putConfig rootUri initOptions processId
    capabilities

theorem steady_of_holdings {s t : Server} (h : t.holdings = s.holdings) : Steady s t := by
  rw [holdings, holdings, Holdings.mk.injEq] at h
  refine ⟨fun _ => layout_of_store h.1, h.2.1, h.2.2.1, fun {c} hc => ?_⟩
  rw [configAt?, h.2.2.2]
  exact hc

/-- **Handlers are steady**, apart from the start and from folders. -/
theorem steady_handle {method : Method} (hstart : method ≠ .start) (hfolders : method ≠ .didChangeFolders)
    (params : Params) : Moves Steady (handle method params) :=
  moves_handle {
    writes := fun _ => steady_writable
    lints := fun _ _ => Moves.modify fun _ => steady_of_holdings rfl
    updates := fun _ => steady_updateConfig
    stops := fun _ _ => steady_of_holdings rfl
    ends := fun _ s => steady_of_holdings (keeps_close s) } hstart hfolders params

theorem steady_expire (number : Nat) : Moves Steady (expire number) :=
  moves_expire (fun _ _ => steady_of_holdings rfl) (fun _ _ => steady_of_holdings rfl)
    (fun pid s => steady_of_holdings (keeps_watchParent pid s)) number

end Service

namespace Client

open EditorService.Service
open EditorService.Server

/-- **A turn of the service**, with the surroundings that it finds. -/
inductive Turn where
  | message (host : Host) (method : Method) (params : Params)
  | expiry (host : Host) (number : Nat)

namespace Turn

/-- The surroundings that a turn finds. -/
def host : Turn → Host
  | .message host _ _ => host
  | .expiry host _ => host

/-- What the service does in a turn. -/
def step : Turn → Service Unit
  | .message _ method params => do
    let _ ← handle method params
  | .expiry _ number => expire number

/-- **The service takes a turn.** -/
def serve (turn : Turn) (s : Server) : Except Fault Unit × Server := turn.step.perform (s.under turn.host)

/-- The method of the message that a turn handles. -/
def method? : Turn → Option Method
  | .message _ method _ => some method
  | .expiry _ _ => none

end Turn

/-- The service after turns. -/
def afterTurns (s : Server) : List Turn → Server
  | [] => s
  | turn :: rest => afterTurns (turn.serve s).2 rest

theorem steady_under (s : Server) (host : Host) : Steady s (s.under host) := Idle.bench s _

/-- **All turns are steady**, apart from the start and from folders. -/
theorem steady_serve {turn : Turn} (hstart : turn.method? ≠ some .start)
    (hfolders : turn.method? ≠ some .didChangeFolders) (s : Server) : Steady s (turn.serve s).2 := by
  refine Drift.chain (steady_under s turn.host) ?_
  cases turn with
  | message host method params =>
    have hhandle : Moves Steady (handle method params) :=
      steady_handle (fun h => hstart (congrArg some h)) (fun h => hfolders (congrArg some h)) params
    exact Moves.bind hhandle (fun _ => Moves.pure _) (s.under host)
  | expiry host number => exact steady_expire number (s.under host)

theorem fromFirst_equipped : FromFirst Equipped where
  opened {t rootUri c w} ht _ hown hthere hcreate := by
    obtain ⟨hid, hempty, hconfig⟩ := create_eq_ok hcreate
    have hc : (t.configAt? (some c)).isSome := hthere
    refine ⟨(founded_withFolder ht rootUri hid hempty).sound, ?_, each_withFolder ?_ rootUri ?_⟩
    · show (t.configAt? t.config).isSome
      rw [hown]
      exact hc
    · intro id v hv
      simp [layout, ht.workspaces] at hv
    · rw [hconfig]
      exact hc
  kept h hs := hs.of_steady (steady_of_holdings h)

end Client

end EditorService

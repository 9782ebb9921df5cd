import EditorService.Server.Handle

/-!
# Steps of the service, run one after the other

A step of the service may stop with a fault, and what it changed before stays changed. So a law about a step speaks of
the state behind it in both cases. This module has the tools for such laws.

* **Equations.** `perform_bind` and the lemmas beside it run a step one part at a time.
* **Drifts.** A drift is a relation between a state and a later one that holds at rest and can be chained.
  `Moves R step` says that `step` leads every state to one that stands in the drift `R` to it, fault or no fault. It is
  enough to know this of the parts of a step (`Moves.bind`). A view that never changes is a drift: that is `Keeps`.
* **Handlers.** Apart from the start and from folders, handlers are made of few parts: they ask plugins, write documents
  of a workspace, arm timers and give configurations new settings. A drift that allows these parts allows the handlers
  (`moves_handle`).

The drift that most steps share is the last one here: a step that only asks plugins, arms timers or sends messages
leaves the workspaces as they are (`Server.store`).
-/

namespace EditorService

/-- Two computations in turn that may fail and that keep what they changed before. -/
theorem run_bind {σ α β : Type} (first : ExceptT Fault (StateM σ) α) (second : α → ExceptT Fault (StateM σ) β) (s : σ) :
    Id.run (StateT.run (ExceptT.run (first >>= second)) s) =
      match Id.run (StateT.run (ExceptT.run first) s) with
      | (.ok a, t) => Id.run (StateT.run (ExceptT.run (second a)) t)
      | (.error f, t) => (.error f, t) := by
  rcases h : Id.run (StateT.run (ExceptT.run first) s) with ⟨r, t⟩
  have hrun : (first : σ → Except Fault α × σ) s = (r, t) := h
  cases r with
  | ok a =>
    simp only [bind, ExceptT.run, ExceptT.bind, ExceptT.mk, StateT.bind, StateT.run, hrun]
    rfl
  | error f =>
    simp only [bind, ExceptT.run, ExceptT.bind, ExceptT.mk, StateT.bind, StateT.run, hrun]
    rfl

namespace Service

variable {α β : Type}

/-! ## Equations -/

@[simp] theorem perform_pure (a : α) (s : Server) : (pure a : Service α).perform s = (.ok a, s) := rfl

@[simp] theorem perform_get (s : Server) : (get : Service Server).perform s = (.ok s, s) := rfl

@[simp] theorem perform_set (s t : Server) : (set t : Service PUnit).perform s = (.ok (), t) := rfl

@[simp] theorem perform_modify (f : Server → Server) (s : Server) :
    (modify f : Service PUnit).perform s = (.ok (), f s) := rfl

@[simp] theorem perform_throw (f : Fault) (s : Server) : (throw f : Service α).perform s = (.error f, s) := rfl

@[simp] theorem perform_ofExcept (r : Except Fault α) (s : Server) : (ofExcept r).perform s = (r, s) := by
  cases r with
  | ok a => rfl
  | error f => rfl

@[simp] theorem perform_present_some (a : α) (s : Server) : (present (some a)).perform s = (.ok a, s) := rfl

/-- Two steps in turn: the second starts where the first one ended, unless that was a fault. -/
@[simp] theorem perform_bind (first : Service α) (second : α → Service β) (s : Server) :
    (first >>= second).perform s =
      match first.perform s with
      | (.ok a, t) => (second a).perform t
      | (.error f, t) => (.error f, t) := by
  simp only [perform, run_bind]
  rcases Id.run (StateT.run (ExceptT.run first) s) with ⟨r, t⟩
  cases r <;> rfl

/-- A step of two parts that succeeds: both parts do. -/
theorem perform_bind_eq_ok {first : Service α} {second : α → Service β} {s u : Server} {b : β} :
    (first >>= second).perform s = (.ok b, u) ↔
      ∃ a t, first.perform s = (.ok a, t) ∧ (second a).perform t = (.ok b, u) := by
  rw [perform_bind]
  rcases first.perform s with ⟨r, t⟩
  cases r with
  | ok a =>
    constructor
    · intro h
      exact ⟨a, t, rfl, h⟩
    · rintro ⟨_, _, hfirst, hsecond⟩
      cases hfirst
      exact hsecond
  | error f =>
    constructor
    · intro h
      cases h
    · rintro ⟨_, _, hfirst, _⟩
      cases hfirst

/-- A step that is answered with a fixed value once it is done. -/
theorem perform_answer (step : Service α) (answer : β) (s : Server) :
    (step >>= fun _ => pure answer).perform s = ((step.perform s).1.map fun _ => answer, (step.perform s).2) := by
  rw [perform_bind]
  rcases step.perform s with ⟨r, t⟩
  cases r with
  | ok a => rfl
  | error f => rfl

/-- A job changes the bench and nothing else. -/
theorem perform_job (j : Job α) (s : Server) :
    (job j).perform s = ((j.perform s.bench).1, { s with bench := (j.perform s.bench).2 }) := by
  rw [job, perform_bind, perform_get]
  simp only [perform_bind, perform_set]
  cases (j.perform s.bench).1 with
  | ok a => rfl
  | error f => rfl

/-! ## Drifts -/

/-- **A drift**: a relation between a state of the service and a later one. -/
class Drift (R : Server → Server → Prop) : Prop where
  rest : ∀ s, R s s
  chain : ∀ {s t u}, R s t → R t u → R s u

/-- **An idle drift**: jobs are all the same to it. -/
class Idle (R : Server → Server → Prop) : Prop extends Drift R where
  bench : ∀ s bench, R s { s with bench }

/-- **A step moves along a drift**, whether it ends in a fault or not. -/
def Moves (R : Server → Server → Prop) (step : Service α) : Prop := ∀ s, R s (step.perform s).2

/-- A view of the state that stays the same. -/
def Same {γ : Type} (view : Server → γ) (s t : Server) : Prop := view t = view s

instance {γ : Type} (view : Server → γ) : Drift (Same view) where
  rest _ := rfl
  chain hst htu := htu.trans hst

/-- **A step keeps a view of the state.** -/
abbrev Keeps {γ : Type} (view : Server → γ) (step : Service α) : Prop := Moves (Same view) step

section

variable {R : Server → Server → Prop}

theorem Moves.modify {f : Server → Server} (h : ∀ s, R s (f s)) : Moves R (modify f : Service PUnit) := h

/-- A step that looks at the state first: the rest may rely on what it saw. -/
theorem Drift.get_bind {second : Server → Service β} {s : Server} (h : R s ((second s).perform s).2) :
    R s ((MonadState.get >>= second).perform s).2 := by
  rw [perform_bind]
  exact h

theorem Moves.get_bind {second : Server → Service β} (h : ∀ s, R s ((second s).perform s).2) :
    Moves R (MonadState.get >>= second) := fun s => Drift.get_bind (h s)

/-- **A step ends in another one**: when it succeeds, it moved along the drift, and the other one did the rest. -/
def EndsIn (R : Server → Server → Prop) (step last : Service α) : Prop :=
  ∀ s u a, step.perform s = (.ok a, u) → ∃ t, R s t ∧ last.perform t = (.ok a, u)

/-- The first part is a look at something that is known. -/
theorem EndsIn.known {first : Service α} {second : α → Service β} {last : Service β} {a : α}
    (h : ∀ s, first.perform s = (.ok a, s)) (k : EndsIn R (second a) last) : EndsIn R (first >>= second) last := by
  intro s u b hrun
  rw [perform_bind, h] at hrun
  exact k s u b hrun

variable [Drift R]

theorem EndsIn.rest (step : Service α) : EndsIn R step step := fun s _ _ h => ⟨s, Drift.rest s, h⟩

theorem EndsIn.bind {first : Service α} {second : α → Service β} {last : Service β} (h : Moves R first)
    (k : ∀ a, EndsIn R (second a) last) : EndsIn R (first >>= second) last := by
  intro s u b hrun
  obtain ⟨a, t, hfirst, hsecond⟩ := perform_bind_eq_ok.mp hrun
  have hmoves := h s
  rw [hfirst] at hmoves
  obtain ⟨v, hv, hlast⟩ := k a t u b hsecond
  exact ⟨v, Drift.chain hmoves hv, hlast⟩

theorem Moves.pure (a : α) : Moves R (pure a : Service α) := fun s => Drift.rest s

theorem Moves.get : Moves R (get : Service Server) := fun s => Drift.rest s

theorem Moves.throw (f : Fault) : Moves R (throw f : Service α) := fun s => Drift.rest s

theorem Moves.ofExcept (r : Except Fault α) : Moves R (ofExcept r) := by
  intro s
  rw [perform_ofExcept]
  exact Drift.rest s

theorem Moves.present (a : Option α) : Moves R (present a) := by
  cases a with
  | none => exact Moves.throw .memberMissing
  | some a => exact Moves.pure a

/-- A step of two parts, from one state: the second part may rely on what the first one did. -/
theorem Drift.bind_ok {first : Service α} {second : α → Service β} {s : Server} (h : R s (first.perform s).2)
    (k : ∀ a t, first.perform s = (.ok a, t) → R t ((second a).perform t).2) : R s ((first >>= second).perform s).2 := by
  rw [perform_bind]
  rcases hrun : first.perform s with ⟨r, t⟩
  rw [hrun] at h
  cases r with
  | ok a => exact Drift.chain h (k a t hrun)
  | error f => exact h

/-- A step of two parts, from one state: the second part may start anywhere. -/
theorem Drift.bind {first : Service α} {second : α → Service β} {s : Server} (h : R s (first.perform s).2)
    (k : ∀ a, Moves R (second a)) : R s ((first >>= second).perform s).2 := Drift.bind_ok h fun a t _ => k a t

/-- A step of two parts moves along a drift when both parts do. -/
theorem Moves.bind {first : Service α} {second : α → Service β} (h : Moves R first) (k : ∀ a, Moves R (second a)) :
    Moves R (first >>= second) := fun s => Drift.bind (h s) k

theorem Moves.forM {step : α → Service PUnit} (xs : List α) (h : ∀ x ∈ xs, Moves R (step x)) :
    Moves R (xs.forM step) := by
  induction xs with
  | nil => exact Moves.pure PUnit.unit
  | cons x rest ih =>
    have hrest : Moves R (rest.forM step) := ih fun y hy => h y (List.mem_cons_of_mem x hy)
    exact Moves.bind (h x List.mem_cons_self) fun _ => hrest

/-! Parts that change nothing, with what they saw. They are stated at one state: the rest starts there too. -/

theorem Drift.ofExcept_bind {r : Except Fault α} {second : α → Service β} {s : Server}
    (h : ∀ a, r = .ok a → R s ((second a).perform s).2) : R s ((Service.ofExcept r >>= second).perform s).2 := by
  rw [perform_bind, perform_ofExcept]
  cases r with
  | ok a => exact h a rfl
  | error f => exact Drift.rest s

theorem Drift.present_bind {a : Option α} {second : α → Service β} {s : Server}
    (h : ∀ x, a = some x → R s ((second x).perform s).2) : R s ((Service.present a >>= second).perform s).2 := by
  cases a with
  | none => exact Drift.rest s
  | some x =>
    rw [perform_bind, perform_present_some]
    exact h x rfl

theorem Drift.modify_bind {f : Server → Server} {second : PUnit → Service β} {s : Server} (h : R s (f s))
    (k : ∀ u, Moves R (second u)) : R s ((MonadState.modifyGet (fun s => (PUnit.unit, f s)) >>= second).perform s).2 := by
  rw [perform_bind]
  exact Drift.chain h (k PUnit.unit (f s))

end

/-! ## Parts of handlers -/

section

variable {R : Server → Server → Prop} [Idle R]

theorem moves_job (j : Job α) : Moves R (job j) := by
  intro s
  rw [perform_job]
  exact Idle.bench s _

theorem moves_askPlugins (hook : Hook) (uri : Option String) (arguments : List (String × Value)) :
    Moves R (askPlugins hook uri arguments) := by
  refine Moves.bind Moves.get fun s => ?_
  extract_lets workspace ask
  have hask : ∀ d, Moves R (ask d) := fun d =>
    Moves.bind (Moves.present _) fun _ => Moves.bind (Moves.present _) fun _ => moves_job _
  split
  · exact Moves.bind (Moves.pure _) hask
  · exact Moves.bind (Moves.pure _) hask
  · refine Moves.bind (Moves.present _) fun w => Moves.bind (Moves.ofExcept _) fun d => ?_
    exact Moves.bind (Moves.pure _) hask

theorem moves_askForAll (hook : Hook) (uri : Option String) (arguments : List (String × Value)) :
    Moves R (askForAll hook uri arguments) :=
  Moves.bind (moves_askPlugins hook uri arguments) fun _ => Moves.ofExcept _

theorem moves_uriParam (params : Params) : Moves R (uriParam params) := Moves.ofExcept _

theorem moves_askAtPosition (hook : Hook) (params : Params) (arguments : List (String × Value)) :
    Moves R (askAtPosition hook params arguments) :=
  Moves.bind (moves_uriParam params) fun _ => moves_askPlugins _ _ _

theorem moves_askAtPositionForAll (hook : Hook) (params : Params) (arguments : List (String × Value)) :
    Moves R (askAtPositionForAll hook params arguments) :=
  Moves.bind (moves_askAtPosition hook params arguments) fun _ => Moves.ofExcept _

theorem moves_onlyParams (params : Params) (names : List String) : Moves R (onlyParams params names) := by
  unfold onlyParams
  split
  · exact Moves.throw _
  · exact Moves.pure _

/-- New settings change a configuration and the bench. -/
theorem moves_updateConfig (h : ∀ s c, R s (s.putConfig c)) (id : ConfigId) (client : Value) :
    Moves R (updateConfig id client) := by
  refine Moves.get_bind fun s => Drift.present_bind fun c _ => ?_
  simp only [perform_bind, perform_set, perform_ofExcept]
  exact Drift.chain (Idle.bench s _) (h _ _)

theorem moves_lintAll (hlint : ∀ uri, Moves R (lintLater uri false)) (w : Workspace) (except : List String) :
    Moves R (lintAll w except) :=
  Moves.forM _ fun uri _ => hlint uri

theorem moves_updateWorkspace (hupdate : ∀ id client, Moves R (updateConfig id client)) (w : Workspace)
    (settings : Value) : Moves R (updateWorkspace w settings) := by
  have hgive : ∀ id : Option ConfigId, Moves R (do updateConfig (← present id) (← ownSettings settings)) :=
    fun id => Moves.bind (Moves.present id) fun _ => Moves.bind (Moves.ofExcept _) fun _ => hupdate _ _
  refine Moves.bind (Moves.present _) fun _ => Moves.bind (Moves.ofExcept _) fun _ => ?_
  refine Moves.bind (hupdate _ _) fun _ => Moves.forM _ fun d _ => ?_
  exact Moves.bind (Moves.bind Moves.get fun _ => Moves.pure _) hgive

theorem moves_didChangeConfiguration (hupdate : ∀ id client, Moves R (updateConfig id client))
    (hlint : ∀ uri, Moves R (lintLater uri false)) (settings : Value) :
    Moves R (didChangeConfiguration settings) := by
  refine Moves.bind Moves.get fun s => Moves.bind (Moves.present _) fun id => ?_
  refine Moves.bind (Moves.ofExcept _) fun client => ?_
  refine Moves.bind (hupdate id client) fun _ => Moves.bind Moves.get fun t => Moves.forM _ fun entry _ => ?_
  exact Moves.bind (moves_updateWorkspace hupdate _ _) fun _ => moves_lintAll hlint _ _

theorem moves_didChangeFiles (hlint : ∀ uri, Moves R (lintLater uri false)) (changes : Value) :
    Moves R (didChangeFiles changes) := by
  refine Moves.bind (Moves.ofExcept _) fun uris => ?_
  extract_lets sources lintThem
  have hthem : ∀ u, Moves R (lintThem u) := by
    intro u
    simp only [lintThem]
    split
    · exact Moves.bind Moves.get fun _ => Moves.forM _ fun entry _ => moves_lintAll hlint _ _
    · exact Moves.pure _
  split
  · exact Moves.bind Moves.get fun _ => Moves.bind (Moves.present _) fun _ => Moves.bind (moves_job _) hthem
  · exact hthem ()

end

/-! ## Writing documents -/

/-- **Documents rewritten in place**: each is at home in the workspace, or where one of its documents was before. -/
def Rewrites (w : Workspace) (documents : Table String Document) : Prop :=
  ∀ d ∈ documents.values, d.home = w.id ∨ ∃ before ∈ w.documents.values, before.home = d.home

theorem rewrites_put {w : Workspace} (uri : String) {d : Document}
    (h : d.home = w.id ∨ ∃ before ∈ w.documents.values, before.home = d.home) :
    Rewrites w (Table.put w.documents uri d) := by
  intro other hother
  obtain ⟨e, he, rfl⟩ := List.mem_map.mp hother
  rcases Table.mem_put he with rfl | hold
  · exact h
  · exact .inr ⟨e.2, List.mem_map_of_mem hold, rfl⟩

theorem openDocument_eq_ok {w v : Workspace} {host : Host} {uri : String} {source : Option String} {version : Value}
    (h : w.openDocument host uri source version = .ok v) :
    ∃ documents, v = { w with documents } ∧ Rewrites w documents := by
  obtain ⟨d, hd, h⟩ := Fault.bind_eq_ok.mp h
  obtain ⟨path, -, hd⟩ := Fault.bind_eq_ok.mp hd
  obtain ⟨roots, -, hd⟩ := Fault.bind_eq_ok.mp hd
  obtain ⟨path, dottedName, -, -, rfl⟩ := Document.create_eq_ok_iff.mp hd
  cases h
  exact ⟨_, rfl, rewrites_put uri (.inl rfl)⟩

theorem changeDocument_eq_ok {w v : Workspace} {files : FileTree} {uri : String} {change version : Value}
    (h : w.changeDocument files uri change version = .ok v) :
    ∃ documents, v = { w with documents } ∧ Rewrites w documents := by
  rw [Workspace.changeDocument] at h
  split at h
  · exact nomatch h
  · next before hbefore =>
    obtain ⟨c, -, h⟩ := Fault.bind_eq_ok.mp h
    obtain ⟨d, hd, h⟩ := Fault.bind_eq_ok.mp h
    cases h
    have hhome : before.home = d.home := by
      rw [Document.applyChange] at hd
      split at hd
      · cases hd
        rfl
      · obtain ⟨source, -, hd⟩ := Fault.bind_eq_ok.mp hd
        split at hd
        · cases hd
          rfl
        · exact nomatch hd
    exact ⟨_, rfl, rewrites_put uri (.inr ⟨before, List.mem_map_of_mem (Table.mem_of_get? hbefore), hhome⟩)⟩

theorem closeDocument_eq_ok {w v : Workspace} {uri : String} (h : w.closeDocument uri = .ok v) :
    ∃ documents, v = { w with documents } ∧ Rewrites w documents := by
  rw [Workspace.closeDocument] at h
  split at h
  · cases h
    refine ⟨_, rfl, fun d hd => .inr ?_⟩
    obtain ⟨e, he, rfl⟩ := List.mem_map.mp hd
    exact ⟨e.2, List.mem_map_of_mem (List.mem_filter.mp he).1, rfl⟩
  · exact nomatch h

/-- **A drift allows documents to be written**, in the workspace that a URI belongs to. -/
def Writable (R : Server → Server → Prop) : Prop :=
  ∀ {s uri w documents}, s.workspaceOf? uri = some w → Rewrites w documents →
    R s (s.putWorkspace { w with documents })

section

variable {R : Server → Server → Prop} [Idle R]

theorem moves_didOpen (hwrite : Writable R) (hlint : ∀ uri, Moves R (lintLater uri true)) (params : Params) :
    Moves R (didOpen params) := by
  refine Moves.bind (moves_uriParam params) fun uri => ?_
  refine Moves.get_bind fun s => Drift.present_bind fun w hw => ?_
  refine Drift.ofExcept_bind fun source _ => Drift.ofExcept_bind fun version _ => Drift.get_bind ?_
  refine Drift.ofExcept_bind fun v hv => ?_
  obtain ⟨documents, rfl, hrewrites⟩ := openDocument_eq_ok hv
  exact Drift.modify_bind (hwrite hw hrewrites) fun _ => Moves.bind (moves_askPlugins _ _ _) fun _ => hlint uri

theorem moves_changeDocument (hwrite : Writable R) (uri : String) (version change : Value) :
    Moves R (changeDocument uri version change) := by
  refine Moves.get_bind fun s => Drift.present_bind fun w hw => Drift.get_bind ?_
  refine Drift.ofExcept_bind fun v hv => ?_
  obtain ⟨documents, rfl, hrewrites⟩ := changeDocument_eq_ok hv
  exact hwrite hw hrewrites

theorem moves_didChange (hwrite : Writable R) (hlint : ∀ uri, Moves R (lintLater uri false)) (params : Params) :
    Moves R (didChange params) := by
  refine Moves.bind (moves_uriParam params) fun uri => Moves.bind (Moves.ofExcept _) fun changes => ?_
  refine Moves.bind (Moves.ofExcept _) fun version => ?_
  exact Moves.bind (Moves.forM _ fun change _ => moves_changeDocument hwrite uri version change) fun _ => hlint uri

theorem moves_didClose (hwrite : Writable R) (params : Params) : Moves R (didClose params) := by
  refine Moves.bind (moves_uriParam params) fun uri => ?_
  refine Moves.get_bind fun s => Drift.present_bind fun w hw => Drift.ofExcept_bind fun v hv => ?_
  obtain ⟨documents, rfl, hrewrites⟩ := closeDocument_eq_ok hv
  exact hwrite hw hrewrites

end

/-! ## Folder events -/

section

variable {R : Server → Server → Prop} [Idle R]

theorem moves_newConfig (hnext : ∀ s nextConfig, R s { s with nextConfig }) (hput : ∀ s c, R s (s.putConfig c))
    (rootUri : String) (initOptions processId capabilities : Value) :
    Moves R (newConfig rootUri initOptions processId capabilities) := by
  refine Moves.get_bind fun s => ?_
  have hrest : ∀ j : Job Config, Moves R (do let c ← job j; modify (·.putConfig c); return c) := fun j =>
    Moves.bind (moves_job j) fun _ => Moves.bind (Moves.modify fun _ => hput _ _) fun _ => Moves.pure _
  rw [perform_bind, perform_set]
  exact Drift.chain (hnext s _) (hrest _ _)

/-- **A new configuration**: it is kept under its number. -/
theorem newConfig_eq_ok {s t : Server} {rootUri : String} {initOptions processId capabilities : Value} {c : Config}
    (h : (newConfig rootUri initOptions processId capabilities).perform s = (.ok c, t)) :
    ∃ nextConfig bench, t = ({ s with nextConfig, bench } : Server).putConfig c := by
  simp only [newConfig, perform_bind, perform_get, perform_set, perform_job] at h
  rcases hjob : (Config.create s.nextConfig rootUri initOptions processId capabilities s.sources s.plugins).perform
    s.bench with ⟨r, bench⟩
  rw [hjob] at h
  cases r with
  | error f => exact nomatch h
  | ok c' =>
    cases h
    exact ⟨_, _, rfl⟩

theorem moves_closeFolders (hclose : ∀ uri, Moves R (closeFolder uri)) (entries : List Value) :
    Moves R (closeFolders entries) := by
  refine Moves.forM _ fun entry _ => Moves.bind (Moves.ofExcept _) fun named => ?_
  split
  · exact Moves.bind (Moves.ofExcept _) hclose
  · exact Moves.pure _

theorem moves_openFolders (hopen : ∀ uri, Moves R (openFolder uri)) (entries : List Value) :
    Moves R (openFolders entries) := by
  refine Moves.forM _ fun entry _ => Moves.bind (Moves.ofExcept _) fun named => ?_
  split
  · exact Moves.bind (Moves.ofExcept _) hopen
  · exact Moves.pure _

theorem moves_closedRoot (entries : List Value) : Moves R (closedRoot entries) := by
  induction entries with
  | nil => exact Moves.pure _
  | cons entry rest ih =>
    refine Moves.bind (Moves.ofExcept _) fun uri => Moves.bind Moves.get fun s => ?_
    split
    · exact Moves.pure _
    · exact ih

theorem moves_firstOpened (added : List Value) : Moves R (firstOpened added) := by
  unfold firstOpened
  split
  · exact Moves.pure _
  · refine Moves.bind (Moves.ofExcept _) fun named => ?_
    split
    · exact Moves.bind (Moves.ofExcept _) fun _ => Moves.pure _
    · exact Moves.pure _

theorem moves_replaceRoot (hmove : ∀ uri, Moves R (moveRoot uri)) (added removed : List Value) :
    Moves R (replaceRoot added removed) := by
  refine Moves.bind (moves_closedRoot removed) fun rootClosed => Moves.bind (moves_firstOpened added) fun first => ?_
  split
  · refine Moves.bind Moves.get fun s => ?_
    split
    · exact hmove _
    · exact Moves.pure _
  · exact Moves.pure _

/-- **The first part of a folder event** moves along every drift along which a folder is closed, a folder is opened and
the root moves. -/
theorem moves_arrangeFolders (hclose : ∀ uri, Moves R (closeFolder uri)) (hopen : ∀ uri, Moves R (openFolder uri))
    (hmove : ∀ uri, Moves R (moveRoot uri)) (event : Value) : Moves R (arrangeFolders event) := by
  refine Moves.bind (Moves.ofExcept _) fun _ => Moves.bind (Moves.ofExcept _) fun _ => ?_
  refine Moves.bind (Moves.ofExcept _) fun removed => Moves.bind (moves_closeFolders hclose removed) fun _ => ?_
  refine Moves.bind (Moves.ofExcept _) fun added => Moves.bind (moves_openFolders hopen added) fun _ => ?_
  exact moves_replaceRoot hmove added removed

/-- **The second part of a folder event** moves along every drift along which workspaces may change. -/
theorem moves_moveDocuments (hput : ∀ s w, R s (s.putWorkspace w)) : Moves R moveDocuments := by
  refine Moves.bind Moves.get fun s => Moves.bind (Moves.present _) fun root => Moves.forM _ fun uri _ => ?_
  refine Moves.bind Moves.get fun s => Moves.bind (Moves.present _) fun root => ?_
  split
  · exact Moves.pure _
  · refine Moves.bind (Moves.modify fun s => hput s _) fun _ => ?_
    refine Moves.bind Moves.get fun s => Moves.bind (Moves.present _) fun target => ?_
    exact Moves.modify fun s => hput s _

/-! ## Timers -/

theorem moves_lintNow (hsend : ∀ s sent, R s { s with sent }) (uri : String) (saved : Bool) :
    Moves R (lintNow uri saved) := by
  refine Moves.bind Moves.get fun s => Moves.bind (Moves.present _) fun w => ?_
  split
  · exact Moves.bind (moves_askForAll _ _ _) fun _ => Moves.modify fun s => hsend s _
  · exact Moves.pure _

theorem moves_releaseTimer (htimers : ∀ s timers, R s { s with timers }) (uri : String) :
    Moves R (releaseTimer uri) := by
  refine Moves.bind Moves.get fun s => ?_
  split
  · exact Moves.modify fun s => htimers s _
  · exact Moves.throw _

theorem moves_expire (htimers : ∀ s timers, R s { s with timers }) (hsend : ∀ s sent, R s { s with sent })
    (hwatch : ∀ pid, Moves R (watchParent pid)) (number : Nat) : Moves R (expire number) := by
  refine Moves.bind Moves.get fun s => ?_
  split
  · next t _ =>
    refine Moves.bind (Moves.modify fun s => htimers s _) fun _ => ?_
    cases t with
    | lint uri saved => exact Moves.bind (moves_releaseTimer htimers uri) fun _ => moves_lintNow hsend uri saved
    | watch pid => exact hwatch pid
  · exact Moves.pure _

/-! ## The start -/

theorem moves_capabilities : Moves R capabilities :=
  Moves.bind (moves_askForAll _ _ _) fun _ => Moves.bind (moves_askPlugins _ _ _) fun _ =>
    Moves.bind (Moves.ofExcept _) fun _ => Moves.pure _

/-- The root is found without any change. -/
theorem perform_rootOf (rootUri rootPath : Value) (s : Server) : ((rootOf rootUri rootPath).perform s).2 = s := by
  have hmoves : Keeps (fun t => t) (rootOf rootUri rootPath) := by
    unfold rootOf
    split
    · split
      · exact Moves.pure _
      · exact Moves.bind (Moves.ofExcept _) fun _ => Moves.bind Moves.get fun _ => Moves.ofExcept _
    · exact Moves.ofExcept _
  exact hmoves s

/-- **The start, from one state**: it is enough to know what opening the root does there. -/
theorem start_moves {s : Server}
    (hopen : ∀ rootUri options processId given, R s ((openRoot rootUri options processId given).perform s).2)
    (hdispatch : ∀ t dispatchers, R t { t with dispatchers }) (hwatching : ∀ t, R t { t with watching := true })
    (hwatch : ∀ pid, Moves R (watchParent pid)) (params : Params) : R s ((start params).perform s).2 := by
  unfold start
  extract_lets given options options processId answer
  have hanswer : ∀ u, Moves R (answer u) := fun _ => Moves.bind moves_capabilities fun _ => Moves.pure _
  have hroot := perform_rootOf (given "rootUri") (given "rootPath") s
  rw [perform_bind]
  rcases hrun : (rootOf (given "rootUri") (given "rootPath")).perform s with ⟨r, t⟩
  rw [hrun] at hroot
  cases hroot
  cases r with
  | error f => exact Drift.rest _
  | ok rootUri =>
    refine Drift.bind (hopen _ _ _ _) fun _ => Moves.bind (moves_askPlugins _ _ _) fun dispatchers => ?_
    refine Moves.bind (Moves.modify fun t => hdispatch t _) fun _ => ?_
    refine Moves.bind (moves_askPlugins _ _ _) fun _ => Moves.bind Moves.get fun t => ?_
    split
    · exact Moves.bind (Moves.modify hwatching) fun _ => Moves.bind (hwatch _) hanswer
    · exact hanswer ()

end

end Service

/-! ## Handlers -/

namespace Method

/-- How the handler of a method asks for documents to be linted: as saved, as not saved, or not at all. -/
def lintsAs? : Method → Option Bool
  | .didOpen | .didSave => some true
  | .didChange | .didChangeConfiguration | .didChangeFiles => some false
  | _ => none

/-- Whether a method is about one document, and asks for it to be linted. -/
def lintsOne : Method → Bool
  | .didOpen | .didSave | .didChange => true
  | _ => false

/-- Whether the handler of a method writes documents. -/
def writesDocuments : Method → Bool
  | .didOpen | .didChange | .didClose => true
  | _ => false

end Method

namespace Service

/-- **What a drift has to allow** for the handler of a method to move along it. -/
structure Allows (R : Server → Server → Prop) (method : Method) : Prop where
  writes : method.writesDocuments = true → Writable R
  lints : ∀ {saved}, method.lintsAs? = some saved → ∀ uri, Moves R (lintLater uri saved)
  updates : method = .didChangeConfiguration → ∀ id client, Moves R (updateConfig id client)
  stops : method = .shutdown → ∀ s, R s { s with stopped := true }
  ends : method = .exit → Moves R close

/-- **Handlers move along every drift that allows their parts**, apart from the start and from folders. -/
theorem moves_handle {R : Server → Server → Prop} [Idle R] {method : Method} (h : Allows R method)
    (hstart : method ≠ .start) (hfolders : method ≠ .didChangeFolders) (params : Params) :
    Moves R (handle method params) := by
  have hask : ∀ hook arguments, Moves R (do askForAll hook (some (← uriParam params)) arguments) :=
    fun hook arguments => Moves.bind (moves_uriParam params) fun _ => moves_askForAll _ _ _
  have hformat : ∀ hook arguments, Moves R (do askPlugins hook (some (← uriParam params)) arguments) :=
    fun hook arguments => Moves.bind (moves_uriParam params) fun _ => moves_askPlugins _ _ _
  cases method with
  | start => exact absurd rfl hstart
  | didChangeFolders => exact absurd rfl hfolders
  | didOpen => exact Moves.bind (moves_didOpen (h.writes rfl) (h.lints rfl) params) fun _ => Moves.pure _
  | didChange => exact Moves.bind (moves_didChange (h.writes rfl) (h.lints rfl) params) fun _ => Moves.pure _
  | didClose => exact Moves.bind (moves_didClose (h.writes rfl) params) fun _ => Moves.pure _
  | shutdown => exact Moves.bind (Moves.modify (h.stops rfl)) fun _ => Moves.pure _
  | exit => exact Moves.bind (h.ends rfl) fun _ => Moves.pure _
  | started => exact Moves.bind (moves_askPlugins _ _ _) fun _ => Moves.pure _
  | didSave =>
    exact Moves.bind (moves_uriParam params) fun uri => Moves.bind (h.lints rfl uri) fun _ => Moves.pure _
  | codeAction => exact hask _ _
  | codeLens => exact hask _ _
  | documentSymbol => exact hask _ _
  | foldingRange => exact hask _ _
  | formatting => exact hformat _ _
  | rangeFormatting => exact hformat _ _
  | completion => exact Moves.bind (moves_askAtPositionForAll _ _ _) fun _ => Moves.pure _
  | definition => exact moves_askAtPositionForAll _ _ _
  | documentHighlight => exact Moves.bind (moves_askAtPositionForAll _ _ _) fun _ => Moves.pure _
  | hover => exact Moves.bind (moves_askAtPosition _ _ _) fun _ => Moves.pure _
  | rename => exact moves_askAtPosition _ _ _
  | references => exact Moves.bind (Moves.ofExcept _) fun _ => moves_askAtPositionForAll _ _ _
  | signatureHelp => exact moves_askAtPosition _ _ _
  | didChangeConfiguration =>
    refine Moves.bind (moves_onlyParams _ _) fun _ => ?_
    exact Moves.bind (moves_didChangeConfiguration (h.updates rfl) (h.lints rfl) _) fun _ => Moves.pure _
  | didChangeFiles => exact Moves.bind (moves_didChangeFiles (h.lints rfl) _) fun _ => Moves.pure _
  | executeCommand => exact Moves.bind (moves_onlyParams _ _) fun _ => moves_askPlugins _ _ _

end Service

/-! ## Steps that leave the workspaces as they are -/

/-- **What the service knows of its workspaces.** -/
structure Store where
  folders : Table String WorkspaceId
  workspaces : Table WorkspaceId Workspace
  nextWorkspace : WorkspaceId
  root : Option WorkspaceId

/-- **What the service has**: its workspaces and configurations, and which of them are its own. -/
structure Holdings where
  store : Store
  rootUri : Option String
  config : Option ConfigId
  configs : Table ConfigId Config

namespace Server

/-- The workspaces of a service, with the folders that name them and the root. -/
def store (s : Server) : Store :=
  { folders := s.folders, workspaces := s.workspaces, nextWorkspace := s.nextWorkspace, root := s.root }

/-- What a service has. -/
def holdings (s : Server) : Holdings :=
  { store := s.store, rootUri := s.rootUri, config := s.config, configs := s.configs }

end Server

namespace Service

instance : Idle (Same Server.store) where
  bench _ _ := rfl

instance : Idle (Same Server.holdings) where
  bench _ _ := rfl

theorem keeps_lintLater (uri : String) (saved : Bool) : Keeps Server.store (lintLater uri saved) :=
  Moves.modify fun _ => rfl

theorem keeps_updateConfig (id : ConfigId) (client : Value) : Keeps Server.store (updateConfig id client) :=
  moves_updateConfig (fun _ _ => rfl) id client

theorem keeps_newConfig (rootUri : String) (initOptions processId capabilities : Value) :
    Keeps Server.store (newConfig rootUri initOptions processId capabilities) :=
  moves_newConfig (fun _ _ => rfl) (fun _ _ => rfl) rootUri initOptions processId capabilities

theorem keeps_close : Keeps Server.holdings close :=
  Moves.bind (Moves.modify fun _ => rfl) fun _ => Moves.modify fun _ => rfl

theorem keeps_watchParent (pid : Value) : Keeps Server.holdings (watchParent pid) := by
  refine Moves.bind (moves_job _) fun alive => ?_
  split
  · exact Moves.modify fun _ => rfl
  · exact keeps_close

theorem keeps_expire (number : Nat) : Keeps Server.store (expire number) :=
  moves_expire (fun _ _ => rfl) (fun _ _ => rfl) (fun pid s => congrArg Holdings.store (keeps_watchParent pid s)) number

end Service

end EditorService

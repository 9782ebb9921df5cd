import EditorService.Debounce

/-!
# Clocks that debounce

A clock has two tables: the timers that are armed, and for each key the timer that it waits for. The two must not come
apart. A clock is **sound** when they agree: a key waits for a timer exactly if a timer with this key is armed, and
numbers are given out once.

Each operation keeps a clock sound, and `action?` says what a key waits for afterwards. A request replaces what its key
waited for and leaves all other keys alone. A timer that expires finds its key in the table, and the key waits for
nothing any more. So a key has at most one armed timer (`Sound.alone`).
-/

namespace EditorService

namespace Clock

variable {κ τ : Type} [DecidableEq κ] {key? : τ → Option κ} {c : Clock κ τ}

/-- **A clock is sound.** -/
structure Sound (key? : τ → Option κ) (c : Clock κ τ) : Prop where
  fresh : ∀ {n t}, Table.get? c.armed n = some t → n < c.next
  distinct : c.armed.keys.Nodup
  awaited : ∀ {n t k}, Table.get? c.armed n = some t → key? t = some k → Table.get? c.waiting k = some n
  armed : ∀ {k n}, Table.get? c.waiting k = some n → ∃ t, Table.get? c.armed n = some t ∧ key? t = some k

/-- **What a key waits for.** -/
def action? (c : Clock κ τ) (k : κ) : Option τ := (Table.get? c.waiting k).bind (Table.get? c.armed)

/-- A timer is gone: it is not armed any more, and its key, if it has one, waits for nothing. -/
def finish (c : Clock κ τ) (number : Nat) (key : Option κ) : Clock κ τ :=
  { c with
    armed := Table.erase c.armed number
    waiting := match key with
      | some k => Table.erase c.waiting k
      | none => c.waiting }

theorem sound_empty : Sound key? ({} : Clock κ τ) := ⟨nofun, List.nodup_nil, nofun, nofun⟩

/-! ## What a key waits for -/

theorem Sound.action?_eq_none (hc : Sound key? c) {k : κ} : c.action? k = none ↔ Table.get? c.waiting k = none := by
  constructor
  · intro h
    cases hn : Table.get? c.waiting k with
    | none => rfl
    | some n =>
      obtain ⟨t, ht, -⟩ := hc.armed hn
      rw [action?, hn, Option.bind_some, ht] at h
      exact nomatch h
  · intro h
    rw [action?, h, Option.bind_none]

/-- **A key has at most one armed timer.** -/
theorem Sound.alone (hc : Sound key? c) (k : κ) :
    (c.armed.filter fun e => key? e.2 = some k).length ≤ 1 := by
  -- Every timer with this key is the one that the key waits for, and numbers are not repeated.
  have hsame : ∀ e ∈ c.armed.filter fun e => key? e.2 = some k, Table.get? c.waiting k = some e.1 := by
    intro e he
    obtain ⟨hmem, hkey⟩ := List.mem_filter.mp he
    exact hc.awaited (Table.get?_of_mem hc.distinct hmem) (of_decide_eq_true hkey)
  have hdistinct : ((c.armed.filter fun e => key? e.2 = some k).map Prod.fst).Nodup :=
    hc.distinct.sublist (List.filter_sublist.map Prod.fst)
  generalize c.armed.filter _ = same at hsame hdistinct
  match same with
  | [] => exact Nat.zero_le 1
  | [_] => exact Nat.le_refl 1
  | a :: b :: rest =>
    have ha := hsame a List.mem_cons_self
    have hb := hsame b (List.mem_cons_of_mem a List.mem_cons_self)
    have heq : a.1 = b.1 := Option.some.inj (ha.symm.trans hb)
    simp [heq] at hdistinct

/-! ## Starting a timer without a key -/

theorem Sound.get?_next (hc : Sound key? c) : Table.get? c.armed c.next = none := by
  refine Option.eq_none_iff_forall_ne_some.mpr fun t ht => ?_
  exact Nat.lt_irrefl _ (hc.fresh ht)

theorem armed_start (hc : Sound key? c) (t : τ) (n : Nat) :
    Table.get? (c.start t).armed n = if n = c.next then some t else Table.get? c.armed n := by
  rw [start, Table.get?_append]
  by_cases h : n = c.next
  · simp [h, hc.get?_next, Table.get?]
  · simp [h, Table.get?, Ne.symm h]

theorem nodup_start {armed : Table Nat τ} (h : armed.keys.Nodup) {n : Nat} (hn : Table.get? armed n = none) (t : τ) :
    (Table.keys (armed ++ [(n, t)])).Nodup := by
  have hnew : n ∉ armed.keys := by
    rw [Table.mem_keys_iff, hn]
    exact Bool.false_ne_true
  simp only [Table.keys, List.map_append, List.map_cons, List.map_nil]
  refine List.nodup_append.mpr ⟨h, by simp, fun a ha b hb heq => hnew ?_⟩
  cases List.mem_singleton.mp hb
  exact heq ▸ ha

theorem Sound.start (hc : Sound key? c) {t : τ} (ht : key? t = none) : Sound key? (c.start t) where
  fresh {n t'} h := by
    rw [armed_start hc] at h
    show n < c.next + 1
    split at h
    · omega
    · exact Nat.lt_succ_of_lt (hc.fresh h)
  distinct := nodup_start hc.distinct hc.get?_next t
  awaited {n t' k} h hk := by
    rw [armed_start hc] at h
    split at h
    · cases h
      rw [ht] at hk
      cases hk
    · exact hc.awaited h hk
  armed {k n} h := by
    obtain ⟨t', ht', hk⟩ := hc.armed h
    refine ⟨t', ?_, hk⟩
    rw [armed_start hc, if_neg (Nat.ne_of_lt (hc.fresh ht'))]
    exact ht'

theorem action?_start (hc : Sound key? c) (t : τ) : (c.start t).action? = c.action? := by
  funext k
  show (Table.get? c.waiting k).bind (Table.get? (c.start t).armed) = _
  rw [action?]
  cases hn : Table.get? c.waiting k with
  | none => rfl
  | some n =>
    obtain ⟨t', ht', -⟩ := hc.armed hn
    rw [Option.bind_some, Option.bind_some, armed_start hc, if_neg (Nat.ne_of_lt (hc.fresh ht'))]

/-! ## A timer that is gone -/

theorem waiting_finish (c : Clock κ τ) (n : Nat) (key : Option κ) (k : κ) :
    Table.get? (c.finish n key).waiting k = if key = some k then none else Table.get? c.waiting k := by
  cases key with
  | none => rfl
  | some k' =>
    show Table.get? (Table.erase c.waiting k') k = _
    rw [Table.get?_erase]
    by_cases h : k = k'
    · simp [h]
    · simp [h, Ne.symm h]

theorem armed_finish (c : Clock κ τ) (n : Nat) (key : Option κ) (m : Nat) :
    Table.get? (c.finish n key).armed m = if m = n then none else Table.get? c.armed m := Table.get?_erase c.armed n m

theorem Sound.finish (hc : Sound key? c) {n : Nat} {t : τ} (hn : Table.get? c.armed n = some t) :
    Sound key? (c.finish n (key? t)) where
  fresh {m t'} h := by
    rw [armed_finish] at h
    split at h
    · cases h
    · exact hc.fresh h
  distinct := Table.nodup_erase hc.distinct n
  awaited {m t' k} h hk := by
    rw [armed_finish] at h
    split at h
    · cases h
    · next hne =>
      rw [waiting_finish, if_neg]
      · exact hc.awaited h hk
      · intro ht
        exact hne (Option.some.inj ((hc.awaited h hk).symm.trans (hc.awaited hn ht)))
  armed {k m} h := by
    rw [waiting_finish] at h
    split at h
    · cases h
    · next hne =>
      obtain ⟨t', ht', hk⟩ := hc.armed h
      refine ⟨t', ?_, hk⟩
      rw [armed_finish, if_neg]
      · exact ht'
      · rintro rfl
        cases hn.symm.trans ht'
        exact hne hk

theorem action?_finish (hc : Sound key? c) {n : Nat} {t : τ} (hn : Table.get? c.armed n = some t) (k : κ) :
    (c.finish n (key? t)).action? k = if key? t = some k then none else c.action? k := by
  rw [action?, waiting_finish]
  split
  · rfl
  · next hne =>
    rw [action?]
    cases hm : Table.get? c.waiting k with
    | none => rfl
    | some m =>
      obtain ⟨t', ht', hk⟩ := hc.armed hm
      rw [Option.bind_some, Option.bind_some, armed_finish, if_neg]
      rintro rfl
      cases hn.symm.trans ht'
      exact hne hk

/-- **A timer with a key expires**: its key is in the table. -/
theorem release?_stop (hc : Sound key? c) {n : Nat} {t : τ} {k : κ} (hn : Table.get? c.armed n = some t)
    (ht : key? t = some k) : (c.stop n).release? k = some (c.finish n (key? t)) := by
  have hhas : Table.has (c.stop n).waiting k = true := by
    show (Table.get? c.waiting k).isSome = true
    rw [hc.awaited hn ht]
    rfl
  rw [release?, if_pos hhas, ht]
  rfl

/-! ## A request -/

/-- What is armed after a request: the new timer, and all others but the one that the key waited for. -/
theorem armed_request (hc : Sound key? c) (key : κ) (t : τ) (n : Nat) :
    Table.get? (c.request key t).armed n =
      if n = c.next then some t else if Table.get? c.waiting key = some n then none else Table.get? c.armed n := by
  cases hold : Table.get? c.waiting key with
  | none =>
    simp only [request, hold]
    rw [armed_start hc]
    simp
  | some old =>
    obtain ⟨t', ht', hk⟩ := hc.armed hold
    have hgone : Table.get? ((c.stop old).start t).armed n =
        if n = c.next then some t else Table.get? (Table.erase c.armed old) n := by
      have hfinish := armed_start (hc.finish ht') t n
      exact hfinish
    simp only [request, hold]
    rw [hgone, Table.get?_erase]
    simp only [Option.some.injEq, eq_comm]

theorem next_request (c : Clock κ τ) (key : κ) (t : τ) : (c.request key t).next = c.next + 1 := by
  unfold request
  split <;> rfl

theorem waiting_request (c : Clock κ τ) (key : κ) (t : τ) (k : κ) :
    Table.get? (c.request key t).waiting k = if k = key then some c.next else Table.get? c.waiting k :=
  Table.get?_put c.waiting key k c.next

/-- No other key waits for the timer that a key waits for. -/
theorem Sound.waits_alone (hc : Sound key? c) {k key : κ} {n : Nat} (hk : Table.get? c.waiting k = some n)
    (hkey : Table.get? c.waiting key = some n) : k = key := by
  obtain ⟨t, ht, htk⟩ := hc.armed hk
  obtain ⟨u, hu, huk⟩ := hc.armed hkey
  cases ht.symm.trans hu
  exact Option.some.inj (htk.symm.trans huk)

theorem Sound.request (hc : Sound key? c) {key : κ} {t : τ} (ht : key? t = some key) :
    Sound key? (c.request key t) where
  fresh {n t'} h := by
    rw [armed_request hc] at h
    rw [next_request]
    split at h
    · omega
    · split at h
      · cases h
      · exact Nat.lt_succ_of_lt (hc.fresh h)
  distinct := by
    cases hold : Table.get? c.waiting key with
    | none =>
      simp only [Clock.request, hold]
      exact nodup_start hc.distinct hc.get?_next t
    | some old =>
      simp only [Clock.request, hold]
      refine nodup_start (Table.nodup_erase hc.distinct old) ?_ t
      show Table.get? (Table.erase c.armed old) c.next = none
      rw [Table.get?_erase, hc.get?_next, ite_self]
  awaited {n t' k} h hk := by
    rw [armed_request hc] at h
    rw [waiting_request]
    split at h
    · next hn =>
      cases h
      rw [if_pos (Option.some.inj (hk.symm.trans ht)), hn]
    · split at h
      · cases h
      · next hne =>
        have hwait := hc.awaited h hk
        rw [if_neg]
        · exact hwait
        · rintro rfl
          exact hne hwait
  armed {k n} h := by
    rw [waiting_request] at h
    split at h
    · next hkey =>
      cases h
      exact ⟨t, by rw [armed_request hc, if_pos rfl], by rw [ht, hkey]⟩
    · next hkey =>
      obtain ⟨t', ht', hk⟩ := hc.armed h
      refine ⟨t', ?_, hk⟩
      rw [armed_request hc, if_neg (Nat.ne_of_lt (hc.fresh ht')), if_neg]
      · exact ht'
      · exact fun hsame => hkey (hc.waits_alone h hsame)

/-- **What keys wait for after a request**: its key waits for the new timer, and nothing changes for the others. -/
theorem action?_request (hc : Sound key? c) (key : κ) (t : τ) (k : κ) :
    (c.request key t).action? k = if k = key then some t else c.action? k := by
  rw [action?, waiting_request]
  by_cases hk : k = key
  · rw [if_pos hk, if_pos hk, Option.bind_some, armed_request hc, if_pos rfl]
  · rw [if_neg hk, if_neg hk, action?]
    cases hn : Table.get? c.waiting k with
    | none => rfl
    | some n =>
      obtain ⟨t', ht', -⟩ := hc.armed hn
      rw [Option.bind_some, Option.bind_some, armed_request hc, if_neg (Nat.ne_of_lt (hc.fresh ht')), if_neg]
      exact fun hsame => hk (hc.waits_alone hn hsame)

end Clock

end EditorService

/-!
# Tables in order of insertion

A table is a list of keys with their values. Writing a key that is present replaces its value and leaves its place;
writing a new key puts it last. Every answer that shows a table shows it in this order.

The laws say what a lookup sees after a write and after an erasure: `get?_put` and `get?_erase`.
-/

namespace EditorService

/-- **A table**: keys with values, in order of insertion. -/
abbrev Table (κ : Type) (α : Type) := List (κ × α)

namespace Table

variable {κ α : Type} [DecidableEq κ]

/-- The value at a key: the first one, where a key should be repeated. -/
def get? (t : Table κ α) (k : κ) : Option α :=
  match t with
  | [] => none
  | (k', v) :: rest => if k' = k then some v else get? rest k

/-- Writes a value at a key. -/
def put (t : Table κ α) (k : κ) (v : α) : Table κ α :=
  match t with
  | [] => [(k, v)]
  | (k', v') :: rest => if k' = k then (k, v) :: rest else (k', v') :: put rest k v

/-- Removes a key. -/
def erase (t : Table κ α) (k : κ) : Table κ α :=
  t.filter fun e => e.1 ≠ k

/-- The keys, in order. -/
def keys (t : Table κ α) : List κ := t.map (·.1)

/-- The values, in order of their keys. -/
def values (t : Table κ α) : List α := t.map (·.2)

/-- Whether a key is present. -/
def has (t : Table κ α) (k : κ) : Bool := (get? t k).isSome

/-- Writes every entry of a list, from left to right. -/
def putAll (t : Table κ α) (entries : List (κ × α)) : Table κ α :=
  entries.foldl (fun t e => put t e.1 e.2) t

/-- The table of a list of entries; the last one wins where a key is repeated. -/
def ofList (entries : List (κ × α)) : Table κ α := putAll [] entries

@[simp] theorem get?_nil (k : κ) : get? ([] : Table κ α) k = none := rfl

@[simp] theorem get?_put_self (t : Table κ α) (k : κ) (v : α) : get? (put t k v) k = some v := by
  induction t with
  | nil => simp [put, get?]
  | cons e rest ih =>
    unfold put
    split
    · simp [get?]
    · next h => simp [get?, h, ih]

theorem get?_put_of_ne (t : Table κ α) {k j : κ} (v : α) (h : j ≠ k) : get? (put t k v) j = get? t j := by
  induction t with
  | nil => simp [put, get?, Ne.symm h]
  | cons e rest ih =>
    unfold put
    split
    · next hk => simp [get?, hk, Ne.symm h]
    · simp only [get?]
      split
      · rfl
      · exact ih

@[simp] theorem get?_erase_self (t : Table κ α) (k : κ) : get? (erase t k) k = none := by
  induction t with
  | nil => rfl
  | cons e rest ih =>
    by_cases h : e.1 = k
    · simpa [erase, h] using ih
    · simpa [erase, h, get?] using ih

theorem get?_erase_of_ne (t : Table κ α) {k j : κ} (h : j ≠ k) : get? (erase t k) j = get? t j := by
  induction t with
  | nil => rfl
  | cons e rest ih =>
    by_cases hk : e.1 = k
    · have hj : e.1 ≠ j := fun hj => h (hj ▸ hk)
      simpa [erase, hk, get?, Ne.symm h] using ih
    · by_cases hj : e.1 = j
      · have hf : erase (e :: rest) k = e :: erase rest k := by simp [erase, hk]
        rw [hf]
        simp [get?, hj]
      · simpa [erase, hk, get?, hj] using ih

/-- What a lookup sees after a write. -/
theorem get?_put (t : Table κ α) (k j : κ) (v : α) : get? (put t k v) j = if j = k then some v else get? t j := by
  by_cases h : j = k
  · rw [if_pos h, h, get?_put_self]
  · rw [if_neg h, get?_put_of_ne t v h]

/-- What a lookup sees after an erasure. -/
theorem get?_erase (t : Table κ α) (k j : κ) : get? (erase t k) j = if j = k then none else get? t j := by
  by_cases h : j = k
  · rw [if_pos h, h, get?_erase_self]
  · rw [if_neg h, get?_erase_of_ne t h]

theorem get?_append (t u : Table κ α) (k : κ) : get? (t ++ u) k = (get? t k <|> get? u k) := by
  induction t with
  | nil => rfl
  | cons e rest ih =>
    by_cases h : e.1 = k
    · simp [get?, h]
    · simpa [get?, h] using ih

/-- What a lookup sees among the entries whose key passes a test. -/
theorem get?_filter (t : Table κ α) (keep : κ → Bool) (k : κ) :
    get? (t.filter fun e => keep e.1) k = if keep k then get? t k else none := by
  induction t with
  | nil => simp
  | cons e rest ih =>
    by_cases hk : e.1 = k
    · cases hkeep : keep e.1 <;> simp_all [get?]
    · cases hkeep : keep e.1 <;> simpa [hkeep, get?, hk] using ih

theorem mem_of_get? {t : Table κ α} {k : κ} {v : α} (h : get? t k = some v) : (k, v) ∈ t := by
  induction t with
  | nil => simp at h
  | cons e rest ih =>
    by_cases hk : e.1 = k
    · have hv : e.2 = v := by simpa [get?, hk] using h
      exact List.mem_cons.mpr (.inl (by rw [← hk, ← hv]))
    · exact List.mem_cons_of_mem _ (ih (by simpa [get?, hk] using h))

theorem mem_put {t : Table κ α} {k : κ} {v : α} {e : κ × α} (h : e ∈ put t k v) : e = (k, v) ∨ e ∈ t := by
  induction t with
  | nil => exact .inl (List.mem_singleton.mp h)
  | cons e' rest ih =>
    unfold put at h
    split at h
    · rcases List.mem_cons.mp h with rfl | hrest
      · exact .inl rfl
      · exact .inr (List.mem_cons_of_mem _ hrest)
    · rcases List.mem_cons.mp h with rfl | hrest
      · exact .inr List.mem_cons_self
      · exact (ih hrest).imp_right (List.mem_cons_of_mem _)

/-- The keys are what a lookup finds. -/
theorem mem_keys_iff (t : Table κ α) (k : κ) : k ∈ keys t ↔ (get? t k).isSome := by
  induction t with
  | nil => simp [keys, get?]
  | cons e rest ih =>
    by_cases h : e.1 = k
    · simp [keys, get?, h]
    · simpa [keys, get?, h, Ne.symm h] using ih

/-- Where keys are distinct, every entry is found. -/
theorem get?_of_mem {t : Table κ α} (ht : t.keys.Nodup) {k : κ} {v : α} (h : (k, v) ∈ t) : get? t k = some v := by
  induction t with
  | nil => exact nomatch h
  | cons e rest ih =>
    have hnot : e.1 ∉ keys rest := (List.nodup_cons.mp ht).1
    rcases List.mem_cons.mp h with rfl | hrest
    · simp [get?]
    · have hk : e.1 ≠ k := fun heq => hnot (heq ▸ List.mem_map_of_mem hrest)
      simpa [get?, hk] using ih (List.nodup_cons.mp ht).2 hrest

theorem nodup_erase {t : Table κ α} (ht : t.keys.Nodup) (k : κ) : (erase t k).keys.Nodup :=
  ht.sublist (List.filter_sublist.map Prod.fst)

theorem keys_put (t : Table κ α) (k : κ) (v : α) : keys (put t k v) = if k ∈ keys t then keys t else keys t ++ [k] := by
  induction t with
  | nil => simp [put, keys]
  | cons e rest ih =>
    unfold put
    split
    · next h => simp [keys, h]
    · next h =>
      have hne : k ≠ e.1 := fun heq => h heq.symm
      have hkeys : keys ((e.1, e.2) :: put rest k v) = e.1 :: keys (put rest k v) := rfl
      rw [hkeys, ih]
      by_cases hmem : k ∈ keys rest
      · simp_all [keys]
      · simp_all [keys]

theorem nodup_put {t : Table κ α} (ht : t.keys.Nodup) (k : κ) (v : α) : (put t k v).keys.Nodup := by
  rw [keys_put]
  split
  · exact ht
  · next h => exact List.nodup_append.mpr ⟨ht, by simp, by grind⟩

theorem nodup_putAll {t : Table κ α} (ht : t.keys.Nodup) (entries : List (κ × α)) : (putAll t entries).keys.Nodup := by
  induction entries generalizing t with
  | nil => exact ht
  | cons e rest ih => exact ih (nodup_put ht e.1 e.2)

/-- What a lookup sees after many writes: the last one at its key. -/
theorem get?_putAll (t : Table κ α) (entries : List (κ × α)) (k : κ) :
    get? (putAll t entries) k = (get? entries.reverse k <|> get? t k) := by
  induction entries generalizing t with
  | nil => rfl
  | cons e rest ih =>
    have hput : get? (put t e.1 e.2) k = (get? [e] k <|> get? t k) := by
      rw [get?_put]
      by_cases h : k = e.1
      · simp [get?, h]
      · simp [get?, h, Ne.symm h]
    have hall : putAll t (e :: rest) = putAll (put t e.1 e.2) rest := rfl
    rw [hall, ih, hput, List.reverse_cons, get?_append]
    cases get? rest.reverse k <;> rfl

theorem nodup_ofList (entries : List (κ × α)) : (ofList entries).keys.Nodup := by
  apply nodup_putAll
  simp [keys]

theorem mem_iff_get? {t : Table κ α} (ht : t.keys.Nodup) {k : κ} {v : α} : (k, v) ∈ t ↔ get? t k = some v :=
  ⟨get?_of_mem ht, mem_of_get?⟩

theorem get?_reverse {t : Table κ α} (ht : t.keys.Nodup) (k : κ) : get? t.reverse k = get? t k := by
  have hreverse : (keys t.reverse).Nodup := ((List.reverse_perm t).map Prod.fst).nodup_iff.mpr ht
  ext v
  rw [← mem_iff_get? hreverse, ← mem_iff_get? ht, List.mem_reverse]

theorem get?_ofList (entries : List (κ × α)) (k : κ) : get? (ofList entries) k = get? entries.reverse k := by
  rw [ofList, get?_putAll]
  cases get? entries.reverse k <;> rfl

theorem mem_of_mem_ofList {entries : List (κ × α)} {e : κ × α} (h : e ∈ ofList entries) : e ∈ entries := by
  have hfound := get?_of_mem (nodup_ofList entries) h
  rw [get?_ofList] at hfound
  exact List.mem_reverse.mp (mem_of_get? hfound)

theorem put_of_notMem {t : Table κ α} {k : κ} (h : k ∉ t.keys) (v : α) : put t k v = t ++ [(k, v)] := by
  induction t with
  | nil => rfl
  | cons e rest ih =>
    have hne : e.1 ≠ k := fun heq => h (heq ▸ List.mem_cons_self)
    rw [put, if_neg hne, ih fun hmem => h (List.mem_cons_of_mem _ hmem), List.cons_append]

theorem putAll_of_nodup {t : Table κ α} {entries : List (κ × α)} (h : (keys (t ++ entries)).Nodup) :
    putAll t entries = t ++ entries := by
  induction entries generalizing t with
  | nil => exact (List.append_nil t).symm
  | cons e rest ih =>
    have hnot : e.1 ∉ t.keys := by
      simp only [keys, List.map_append, List.map_cons] at h ⊢
      exact fun hmem => (List.nodup_append.mp h).2.2 _ hmem _ List.mem_cons_self rfl
    have hall : putAll t (e :: rest) = putAll (put t e.1 e.2) rest := rfl
    have hsplit : t ++ e :: rest = t ++ [(e.1, e.2)] ++ rest := by simp
    rw [hall, put_of_notMem hnot, hsplit, ih (hsplit ▸ h)]

/-- Entries with different keys are a table as they are. -/
theorem ofList_of_nodup {entries : List (κ × α)} (h : (keys entries).Nodup) : ofList entries = entries :=
  putAll_of_nodup h

end Table

end EditorService

import Mathlib.Data.List.Nodup

/-! # Tables with a primary key and foreign keys

A table is the list of its rows, in no order that matters. `insertNew` is an insertion that does
nothing on a conflict, `upsert` one that updates the row it conflicts with. -/

namespace Table
variable {ρ κ : Type} [DecidableEq κ] {key : ρ → κ} {l : List ρ} {r x : ρ}

/-- `INSERT … ON CONFLICT (key) DO NOTHING`. -/
def insertNew (key : ρ → κ) (r : ρ) (l : List ρ) : List ρ :=
  if key r ∈ l.map key then l else l ++ [r]

/-- `INSERT … ON CONFLICT (key) DO UPDATE` of all columns. -/
def upsert (key : ρ → κ) (r : ρ) (l : List ρ) : List ρ := l.filter (fun x => key x ≠ key r) ++ [r]

omit [DecidableEq κ] in
theorem nodup_concat (h : (l.map key).Nodup) (hr : key r ∉ l.map key) :
    ((l ++ [r]).map key).Nodup := by
  rw [List.map_append, List.map_singleton]
  refine List.nodup_append.mpr ⟨h, List.nodup_singleton _, ?_⟩
  rintro a ha b hb rfl
  exact hr (List.mem_singleton.mp hb ▸ ha)

theorem nodup_insertNew (h : (l.map key).Nodup) : ((insertNew key r l).map key).Nodup := by
  unfold insertNew
  split
  · exact h
  · exact nodup_concat h ‹_›

theorem mem_of_mem_insertNew (h : x ∈ insertNew key r l) : x ∈ l ∨ x = r := by
  unfold insertNew at h
  split at h
  · exact .inl h
  · simpa using h

theorem mem_insertNew_of_mem (h : x ∈ l) : x ∈ insertNew key r l := by
  unfold insertNew
  split
  · exact h
  · exact List.mem_append_left _ h

theorem mem_upsert : x ∈ upsert key r l ↔ x ∈ l ∧ key x ≠ key r ∨ x = r := by
  simp [upsert]

omit [DecidableEq κ] in
theorem nodup_filter {p : ρ → Bool} (h : (l.map key).Nodup) : ((l.filter p).map key).Nodup :=
  h.sublist (List.filter_sublist.map key)

theorem nodup_upsert (h : (l.map key).Nodup) : ((upsert key r l).map key).Nodup := by
  refine nodup_concat (nodup_filter h) fun hr => ?_
  obtain ⟨x, hx, hkey⟩ := List.mem_map.mp hr
  exact (by simpa using (List.mem_filter.mp hx).2 : key x ≠ key r) hkey

/-- The keys that a deletion leaves. -/
theorem mem_keys_filter_ne {k k' : κ} :
    k' ∈ (l.filter fun x => key x ≠ k).map key ↔ k' ∈ l.map key ∧ k' ≠ k := by
  simp only [List.mem_map, List.mem_filter, decide_not, Bool.not_eq_true', decide_eq_false_iff_not]
  constructor
  · rintro ⟨x, ⟨hx, hne⟩, rfl⟩
    exact ⟨⟨x, hx, rfl⟩, hne⟩
  · rintro ⟨⟨x, hx, rfl⟩, hne⟩
    exact ⟨x, ⟨hx, hne⟩, rfl⟩

/-- A selection by the primary key. -/
theorem filter_key_eq (h : (l.map key).Nodup) (k : κ) :
    l.filter (fun x => key x = k) = (l.find? fun x => key x = k).toList := by
  induction l with
  | nil => rfl
  | cons r l ih =>
    obtain ⟨hr, hl⟩ := List.nodup_cons.mp h
    by_cases hk : key r = k
    · have hrest : l.filter (fun x => key x = k) = [] := by
        refine List.filter_eq_nil_iff.mpr fun x hx hxk => hr ?_
        rw [hk, ← of_decide_eq_true hxk]
        exact List.mem_map_of_mem hx
      simp [hk, hrest]
    · simp [hk, ih hl]

/-- Several upserts in a row. -/
theorem mem_foldl_upsert {rs : List ρ} (h : x ∈ rs.foldl (fun l r => upsert key r l) l) :
    x ∈ l ∨ x ∈ rs := by
  induction rs generalizing l with
  | nil => exact .inl h
  | cons r rs ih =>
    rcases ih h with hx | hx
    · rcases mem_upsert.mp hx with ⟨hx, -⟩ | rfl
      · exact .inl hx
      · exact .inr (.head _)
    · exact .inr (.tail _ hx)

theorem mem_foldl_upsert_of_notMem {rs : List ρ} (h : x ∈ l) (hx : key x ∉ rs.map key) :
    x ∈ rs.foldl (fun l r => upsert key r l) l := by
  induction rs generalizing l with
  | nil => exact h
  | cons r rs ih =>
    simp only [List.map_cons, List.mem_cons, not_or] at hx
    exact ih (mem_upsert.mpr (.inl ⟨h, hx.1⟩)) hx.2

theorem mem_foldl_upsert_of_mem {rs : List ρ} (hrs : (rs.map key).Nodup) (h : x ∈ rs) :
    x ∈ rs.foldl (fun l r => upsert key r l) l := by
  induction rs generalizing l with
  | nil => cases h
  | cons r rs ih =>
    obtain ⟨hr, hrs⟩ := List.nodup_cons.mp hrs
    rcases List.mem_cons.mp h with rfl | h
    · rw [List.foldl_cons]
      exact mem_foldl_upsert_of_notMem (mem_upsert.mpr (.inr rfl)) hr
    · exact ih hrs h

/-- Upserts remove no key. -/
theorem mem_keys_foldl_upsert {rs : List ρ} {k : κ} (h : k ∈ l.map key) :
    k ∈ (rs.foldl (fun l r => upsert key r l) l).map key := by
  induction rs generalizing l with
  | nil => exact h
  | cons r rs ih =>
    refine ih ?_
    obtain ⟨x, hx, rfl⟩ := List.mem_map.mp h
    by_cases hkey : key x = key r
    · exact List.mem_map.mpr ⟨r, mem_upsert.mpr (.inr rfl), hkey.symm⟩
    · exact List.mem_map_of_mem (mem_upsert.mpr (.inl ⟨hx, hkey⟩))

theorem nodup_foldl_upsert {rs : List ρ} (h : (l.map key).Nodup) :
    ((rs.foldl (fun l r => upsert key r l) l).map key).Nodup := by
  induction rs generalizing l with
  | nil => exact h
  | cons r rs ih => exact ih (nodup_upsert h)

/-! ## Selections by the primary key -/

theorem find?_upsert (k : κ) :
    (upsert key r l).find? (fun x => key x = k) =
      if key r = k then some r else l.find? fun x => key x = k := by
  rw [upsert, List.find?_append]
  split
  · rename_i hk
    have hnone : (l.filter fun x => key x ≠ key r).find? (fun x => key x = k) = none := by
      refine List.find?_eq_none.mpr fun x hx hxk => ?_
      have hne : key x ≠ key r := by simpa using (List.mem_filter.mp hx).2
      exact hne ((of_decide_eq_true hxk).trans hk.symm)
    rw [hnone, Option.none_or]
    exact List.find?_cons_of_pos (decide_eq_true hk)
  · rename_i hk
    rw [List.find?_filter]
    have hlast : [r].find? (fun x => key x = k) = none := by simp [hk]
    rw [hlast, Option.or_none]
    congr 1
    funext x
    by_cases hx : key x = k
    · simp [hx, Ne.symm hk]
    · simp [hx]

theorem find?_foldl_upsert_of_notMem {rs : List ρ} {k : κ} (h : k ∉ rs.map key) :
    (rs.foldl (fun l r => upsert key r l) l).find? (fun x => key x = k) =
      l.find? fun x => key x = k := by
  induction rs generalizing l with
  | nil => rfl
  | cons r rs ih =>
    simp only [List.map_cons, List.mem_cons, not_or] at h
    rw [List.foldl_cons, ih h.2, find?_upsert, if_neg (Ne.symm h.1)]

theorem find?_foldl_upsert_of_mem {rs : List ρ} {k : κ} (h : k ∈ rs.map key) :
    ∃ r ∈ rs, (rs.foldl (fun l r => upsert key r l) l).find? (fun x => key x = k) = some r := by
  induction rs generalizing l with
  | nil => cases h
  | cons r rs ih =>
    by_cases hk : k ∈ rs.map key
    · obtain ⟨r', hr', heq⟩ := ih (l := upsert key r l) hk
      exact ⟨r', .tail _ hr', heq⟩
    · obtain rfl : k = key r := by simpa [hk] using h
      refine ⟨r, .head _, ?_⟩
      rw [List.foldl_cons, find?_foldl_upsert_of_notMem hk, find?_upsert, if_pos rfl]

omit [DecidableEq κ] in
/-- An update that keeps the primary key. -/
theorem find?_update [DecidableEq κ] {f : ρ → ρ} (hf : ∀ x, key (f x) = key x) (k : κ) :
    (l.map f).find? (fun x => key x = k) = (l.find? fun x => key x = k).map f := by
  rw [List.find?_map]
  simp only [Function.comp_def, hf]

theorem find?_key_of_mem {k : κ} (h : k ∈ l.map key) :
    ∃ x ∈ l, key x = k ∧ l.find? (fun x => key x = k) = some x := by
  obtain ⟨x, hx⟩ := Option.isSome_iff_exists.mp
    (List.find?_isSome.mpr (by simpa using h : ∃ x ∈ l, decide (key x = k) = true))
  exact ⟨x, List.mem_of_find?_eq_some hx, by simpa using List.find?_some hx, hx⟩

theorem find?_of_mem (h : (l.map key).Nodup) (hx : x ∈ l) :
    l.find? (fun y => key y = key x) = some x := by
  have hmem : key x ∈ l.map key := List.mem_map_of_mem hx
  obtain ⟨y, hy, hkey, hfind⟩ := find?_key_of_mem hmem
  rw [hfind, List.inj_on_of_nodup_map h hy hx hkey]

end Table

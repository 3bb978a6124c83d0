import Mathlib.Data.List.Basic

/-! # Reading a list page by page

A reader asks a server for the items behind an offset until it is done, the server has no more
items, or it fails. Against a server that leaves nothing out, it has read the whole list
(`readPages_eq`), and the pages of a reader who only looks whether a page follows are the list
(`followPages_eq`). A server that cuts its pages out of the list by `pageOf` is one
(`pageOf_serves`). -/

namespace Pages
variable {α : Type u} {σ : Type v}

/-- A page, and whether there is another one behind it. -/
structure Page (α : Type u) where
  items : List α
  hasNext : Bool

/-- Where a reader stops, and whether every page came. It takes no more than so many pages. -/
def readPages (fetch : Nat → Option (Page α)) (step : σ → α → σ) (done : σ → Bool) :
    Nat → Nat → σ → Option (σ × Bool)
  | 0, _, _ => none
  | fuel + 1, offset, s =>
    if done s then some (s, true)
    else match fetch offset with
    | none => some (s, false)
    | some page =>
      if page.items = [] then some (s, true)
      else
        let s := page.items.foldl step s
        if !page.hasNext then some (s, true)
        else readPages fetch step done fuel (offset + page.items.length) s

/-- The pages are parts of the list, of any size: none is empty before the end, and each tells
whether one follows. -/
def Serves (list : List α) (fetch : Nat → Option (Page α)) : Prop :=
  ∀ offset, ∃ size, (offset < list.length → 0 < size) ∧
    fetch offset = some ⟨(list.drop offset).take size,
      offset + ((list.drop offset).take size).length < list.length⟩

variable {list : List α} {fetch : Nat → Option (Page α)} {step : σ → α → σ} {done : σ → Bool}

theorem foldl_of_done (hdone : ∀ s a, done s = true → step s a = s) {s : σ} (hs : done s = true)
    (items : List α) : items.foldl step s = s := by
  induction items with
  | nil => rfl
  | cons a items ih => rw [List.foldl_cons, hdone s a hs, ih]

/-- A reader to whom nothing matters once it is done has read the list to its end. -/
theorem readPages_eq (h : Serves list fetch) (hdone : ∀ s a, done s = true → step s a = s)
    {fuel : Nat}
    {offset : Nat} (s : σ) (hfuel : list.length < fuel + offset) (hoffset : offset ≤ list.length) :
    readPages fetch step done fuel offset s = some ((list.drop offset).foldl step s, true) := by
  induction fuel generalizing offset s with
  | zero => omega
  | succ fuel ih =>
    rw [readPages]
    split
    · rename_i hs
      rw [foldl_of_done hdone hs]
    obtain ⟨size, hsize, hpage⟩ := h offset
    rw [hpage]
    dsimp only
    split
    · rename_i hempty
      have hend : list.drop offset = [] := by
        rcases List.take_eq_nil_iff.mp hempty with hzero | hend
        · by_contra hne
          have hlt := List.length_pos_iff.mpr hne
          rw [List.length_drop] at hlt
          have := hsize (by omega)
          omega
        · exact hend
      rw [hend]
      rfl
    rename_i hne
    have hsplit : (list.drop offset).foldl step s =
        ((list.drop offset).drop size).foldl step
          (((list.drop offset).take size).foldl step s) := by
      rw [← List.foldl_append, List.take_append_drop]
    rw [hsplit]
    have hlength : ((list.drop offset).take size).length = min size (list.length - offset) := by
      rw [List.length_take, List.length_drop]
    have hpos := List.length_pos_iff.mpr hne
    split
    · rename_i hlast
      have hend : (list.drop offset).drop size = [] := by
        rw [List.drop_drop, List.drop_eq_nil_iff]
        simp only [Bool.not_eq_true', decide_eq_false_iff_not] at hlast
        omega
      rw [hend]
      rfl
    · rename_i hnext
      simp only [Bool.not_eq_true', decide_eq_false_iff_not, not_not] at hnext
      rw [ih _ (by omega) (by omega)]
      have hdrop : list.drop (offset + ((list.drop offset).take size).length) =
          (list.drop offset).drop size := by
        rw [List.drop_drop]
        congr 1
        omega
      rw [hdrop]

/-- The pages that a reader takes who asks on as long as one follows. It takes no more than so
many. -/
def followPages (fetch : Nat → Option (Page α)) : Nat → Nat → Option (List (List α))
  | 0, _ => none
  | fuel + 1, offset =>
    match fetch offset with
    | none => none
    | some page =>
      if page.hasNext then
        (followPages fetch fuel (offset + page.items.length)).map fun pages => page.items :: pages
      else some [page.items]

/-- The reader comes to an end, and has every item once and in order. -/
theorem followPages_eq (h : Serves list fetch) {fuel offset : Nat}
    (hfuel : list.length < fuel + offset)
    (hoffset : offset ≤ list.length) :
    ∃ pages, followPages fetch fuel offset = some pages ∧ pages.flatten = list.drop offset := by
  induction fuel generalizing offset with
  | zero => omega
  | succ fuel ih =>
    obtain ⟨size, hsize, hpage⟩ := h offset
    have hlength : ((list.drop offset).take size).length = min size (list.length - offset) := by
      rw [List.length_take, List.length_drop]
    rw [followPages, hpage]
    dsimp only
    split
    · rename_i hnext
      rw [decide_eq_true_eq] at hnext
      obtain ⟨pages, hpages, hflatten⟩ := ih (by omega) (Nat.le_of_lt hnext)
      refine ⟨(list.drop offset).take size :: pages, by rw [hpages, Option.map_some], ?_⟩
      have hdrop : list.drop (offset + ((list.drop offset).take size).length) =
          (list.drop offset).drop size := by
        rw [List.drop_drop]
        congr 1
        omega
      rw [List.flatten_cons, hflatten, hdrop, List.take_append_drop]
    · rename_i hlast
      rw [decide_eq_true_eq] at hlast
      refine ⟨[(list.drop offset).take size], rfl, ?_⟩
      rw [List.flatten_singleton, List.take_of_length_le]
      rw [List.length_drop]
      omega

/-! ## Pages by limit and offset -/

/-- `list[low:high]`. The program panics where the bounds are not in range. -/
def slice (list : List α) (low high : Int) : Option (List α) :=
  if 0 ≤ low ∧ low ≤ high ∧ high ≤ list.length then
    some ((list.drop low.toNat).take (high - low).toNat)
  else none

/-- A page, with what it tells about itself. -/
structure ListPage (α : Type u) extends Page α where
  limit : Int
  offset : Int
  totalCount : Nat
  hasPrev : Bool

/-- The page of a list at an offset, with a limit of its own where none is given. -/
def pageOf (defaultLimit : Int) (filtered : List α) (limit offset : Int) : Option (ListPage α) :=
  let limit := if limit ≤ 0 then defaultLimit else limit
  let offset := if offset < 0 then 0 else offset
  let page : ListPage α :=
    { items := [], limit, offset, totalCount := filtered.length, hasPrev := 0 < offset,
      hasNext := false }
  if filtered.length ≤ offset then some page
  else
    let size := if filtered.length - offset < limit then filtered.length - offset else limit
    (slice filtered offset (offset + size)).map fun items =>
      { page with items, hasNext := offset + size < filtered.length }

/-- The bounds of the slice are in range, and the page has as many items as there are up to the
limit. -/
theorem pageOf_eq {defaultLimit : Int} (hdefault : 0 < defaultLimit) (filtered : List α)
    (limit offset : Int) :
    pageOf defaultLimit filtered limit offset = some
      { items := (filtered.drop offset.toNat).take (if limit ≤ 0 then defaultLimit else limit).toNat
        hasNext :=
          offset.toNat + (if limit ≤ 0 then defaultLimit else limit).toNat < filtered.length
        limit := if limit ≤ 0 then defaultLimit else limit
        offset := offset.toNat
        totalCount := filtered.length
        hasPrev := 0 < offset } := by
  have hfrom : (if offset < 0 then 0 else offset) = (offset.toNat : Int) := by
    split <;> omega
  have hprev : (0 < (offset.toNat : Int)) = (0 < offset) := propext (by omega)
  obtain ⟨size, hsize⟩ : ∃ size : Nat, (if limit ≤ 0 then defaultLimit else limit) = size :=
    Int.eq_ofNat_of_zero_le (by split <;> omega)
  unfold pageOf slice
  simp only [hfrom, hsize, hprev, Int.toNat_natCast]
  generalize offset.toNat = start
  split
  · rename_i hend
    have hlast : ¬start + size < filtered.length := by omega
    rw [List.drop_eq_nil_of_le (by omega), List.take_nil, decide_eq_false hlast]
  · rename_i hmore
    by_cases hover : (filtered.length : Int) - start < size
    · have hlast : ¬(start : Int) + (filtered.length - start) < filtered.length := by omega
      have hlast' : ¬start + size < filtered.length := by omega
      have hall : filtered.length - start ≤ size := by omega
      have hrest :
          ((start : Int) + (filtered.length - start) - start).toNat = filtered.length - start := by
        omega
      rw [if_pos hover, if_pos (by omega), Option.map_some, decide_eq_false hlast,
        decide_eq_false hlast', hrest, ← List.length_drop, List.take_length,
        List.take_of_length_le (by rwa [List.length_drop])]
    · have hnext : ((start : Int) + size < filtered.length) = (start + size < filtered.length) :=
        propext (by omega)
      have hitems : ((start : Int) + size - start).toNat = size := by omega
      rw [if_neg hover, if_pos (by omega), Option.map_some, hitems]
      simp only [hnext]

/-- Pages that are cut out of a list leave nothing of it out. -/
theorem pageOf_serves {defaultLimit : Int} (hdefault : 0 < defaultLimit) (filtered : List α)
    (limit : Int) :
    Serves filtered fun offset =>
      (pageOf defaultLimit filtered limit offset).map ListPage.toPage := by
  intro offset
  refine ⟨(if limit ≤ 0 then defaultLimit else limit).toNat, fun _ => by split <;> omega, ?_⟩
  dsimp only
  rw [pageOf_eq hdefault, Option.map_some, Int.toNat_natCast, List.length_take, List.length_drop]
  generalize (if limit ≤ 0 then defaultLimit else limit).toNat = size
  have hnext : (offset + size < filtered.length) =
      (offset + min size (filtered.length - offset) < filtered.length) := propext (by omega)
  simp only [hnext]

end Pages

import Mathlib.Data.Finmap
import Mathlib.Data.Finset.Sort
import IsalesApi.Foundation.Pages

/-!
# Tables as finite maps

What a table says when the order of its rows is forgotten: a finite map from
keys to the rest of the rows. Each statement of `Table` is an operation on the
map, and a query that orders by the key lists the map.
-/

namespace IsalesApi.Foundation

variable {R K V : Type}

/-- A row is its key and the rest. -/
structure Columns (R : Type) {K : Type} (V : Type) [Keyed R K] where
  rest : R → V
  row : K → V → R
  key_row : ∀ k v, key (row k v) = k
  rest_row : ∀ k v, rest (row k v) = v
  row_rest : ∀ r, row (key r) (rest r) = r

/-! ## Lists of a finite map -/

section Lists

variable [LinearOrder K]

/-- The keys whose entries meet a condition. -/
def matching (q : K → V → Bool) (m : Finmap fun _ : K => V) : Finset K :=
  m.keys.filter fun k => (m.lookup k).any (q k)

/-- The entries that meet a condition, the greatest key first. -/
def listing (row : K → V → R) (q : K → V → Bool) (m : Finmap fun _ : K => V) : List R :=
  ((matching q m).sort (· ≥ ·)).filterMap fun k => (m.lookup k).map (row k)

variable {row : K → V → R} {q : K → V → Bool} {m : Finmap fun _ : K => V}

theorem mem_matching {k : K} : k ∈ matching q m ↔ ∃ v, m.lookup k = some v ∧ q k v = true := by
  rw [matching, Finset.mem_filter, Finmap.mem_keys, ← Finmap.lookup_isSome]
  cases m.lookup k <;> simp

theorem mem_listing {r : R} :
    r ∈ listing row q m ↔ ∃ k v, m.lookup k = some v ∧ q k v = true ∧ row k v = r := by
  simp only [listing, List.mem_filterMap, Finset.mem_sort, mem_matching, Option.map_eq_some_iff]
  constructor
  · rintro ⟨k, ⟨v, hv, hq⟩, v', hv', rfl⟩
    obtain rfl := Option.some.inj (hv.symm.trans hv')
    exact ⟨k, v, hv, hq, rfl⟩
  · rintro ⟨k, v, hv, hq, rfl⟩
    exact ⟨k, ⟨v, hv, hq⟩, v, hv, rfl⟩

/-- Maps that make the same rows under the same keys are listed alike. -/
theorem listing_congr {W : Type} {row' : K → W → R} {q' : K → W → Bool}
    {m' : Finmap fun _ : K => W}
    (hrow : ∀ k, (m.lookup k).map (row k) = (m'.lookup k).map (row' k))
    (hq : ∀ k v w, m.lookup k = some v → m'.lookup k = some w → q k v = q' k w) :
    listing row q m = listing row' q' m' := by
  have hkeys : matching q m = matching q' m' := by
    ext k
    have hk := hrow k
    rw [mem_matching, mem_matching]
    constructor
    · rintro ⟨v, hv, hqv⟩
      rw [hv] at hk
      obtain ⟨w, hw, _⟩ := Option.map_eq_some_iff.mp hk.symm
      exact ⟨w, hw, by rwa [← hq k v w hv hw]⟩
    · rintro ⟨w, hw, hqw⟩
      rw [hw] at hk
      obtain ⟨v, hv, _⟩ := Option.map_eq_some_iff.mp hk
      exact ⟨v, hv, by rwa [hq k v w hv hw]⟩
  unfold listing
  rw [hkeys]
  exact List.filterMap_congr fun k _ => hrow k

end Lists

namespace Table

/-! ## The map of a table -/

section Map

variable [Keyed R K] [DecidableEq K] (c : Columns R V) {T U : Table R}

/-- What a function says of the rows, by their keys. -/
def byKey (f : R → V) (T : Table R) : Finmap fun _ : K => V :=
  (T.rows.map fun r => (⟨key r, f r⟩ : Σ _ : K, V)).toFinmap

theorem lookup_byKey (f : R → V) (k : K) : (T.byKey f).lookup k = (T.get? k).map f := by
  rw [byKey, Finmap.dlookup_list_toFinmap, get?]
  induction T.rows with
  | nil => rfl
  | cons r rows ih =>
    rw [List.map_cons]
    by_cases hk : key r = k
    · subst hk
      rw [List.dlookup_cons_eq, List.find?_cons_of_pos (by simp)]
      rfl
    · rw [List.dlookup_cons_ne _ _ (Ne.symm hk), List.find?_cons_of_neg (by simpa using hk), ih]

def toMap (T : Table R) : Finmap fun _ : K => V :=
  (T.rows.map fun r => (⟨key r, c.rest r⟩ : Σ _ : K, V)).toFinmap

theorem lookup_toMap (k : K) : (T.toMap c).lookup k = (T.get? k).map c.rest :=
  lookup_byKey c.rest k

theorem lookup_toMap_eq_some {k : K} {v : V} :
    (T.toMap c).lookup k = some v ↔ c.row k v ∈ T := by
  rw [lookup_toMap, Option.map_eq_some_iff]
  constructor
  · rintro ⟨r, hr, rfl⟩
    obtain ⟨hr, rfl⟩ := get?_eq_some.mp hr
    rwa [c.row_rest]
  · intro h
    exact ⟨_, get?_eq_some.mpr ⟨h, c.key_row k v⟩, c.rest_row k v⟩

theorem toMap_insert {r : R} (h : T.insert r = some U) :
    U.toMap c = (T.toMap c).insert (key r) (c.rest r) := by
  refine Finmap.ext_lookup fun k => ?_
  rw [lookup_toMap, get?_insert h]
  by_cases hk : k = key r
  · rw [if_pos hk, hk, Finmap.lookup_insert]
    rfl
  · rw [if_neg hk, Finmap.lookup_insert_of_ne _ hk, lookup_toMap]

theorem toMap_update {f : R → R} (hf : ∀ r, key (f r) = key r) {p : R → Bool} {k : K}
    (hp : ∀ r, p r = true ↔ key r = k) {r : R} (hr : T.get? k = some r) :
    (T.update p f hf).toMap c = (T.toMap c).insert k (c.rest (f r)) := by
  refine Finmap.ext_lookup fun j => ?_
  rw [lookup_toMap, get?_update hf hp]
  by_cases hj : j = k
  · subst hj
    rw [if_pos rfl, hr, Finmap.lookup_insert]
    rfl
  · rw [if_neg hj, Finmap.lookup_insert_of_ne _ hj, lookup_toMap]

theorem toMap_delete {p : R → Bool} {k : K} (hp : ∀ r, p r = true ↔ key r = k) :
    (T.delete p).toMap c = (T.toMap c).erase k := by
  refine Finmap.ext_lookup fun j => ?_
  rw [lookup_toMap, get?_delete hp]
  by_cases hj : j = k
  · subst hj
    rw [if_pos rfl, Finmap.lookup_erase]
    rfl
  · rw [if_neg hj, Finmap.lookup_erase_ne hj, lookup_toMap]

theorem mem_toMap {k : K} : k ∈ T.toMap c ↔ ∃ r ∈ T, key r = k := by
  rw [← Finmap.lookup_isSome, lookup_toMap, Option.isSome_map, Option.isSome_iff_exists]
  simp only [get?_eq_some]

end Map

/-! ## Queries -/

section Queries

variable [LinearOrder K] [Keyed R K] (c : Columns R V) {T : Table R} {p : R → Bool}
  {q : K → V → Bool}

theorem listing_perm (hp : ∀ r, p r = q (key r) (c.rest r)) :
    (listing c.row q (T.toMap c)).Perm (T.rows.filter p) := by
  have hrows : (T.rows.filter p).Nodup :=
    (List.Nodup.of_map key T.unique).sublist List.filter_sublist
  have hlisting : (listing c.row q (T.toMap c)).Nodup := by
    refine (Finset.sort_nodup _ _).filterMap fun k j r hk hj => ?_
    obtain ⟨v, _, rfl⟩ := Option.map_eq_some_iff.mp hk
    obtain ⟨w, _, hw⟩ := Option.map_eq_some_iff.mp hj
    rw [← c.key_row k v, ← hw, c.key_row]
  refine (List.perm_ext_iff_of_nodup hlisting hrows).mpr fun r => ?_
  rw [mem_listing, List.mem_filter, hp]
  simp only [lookup_toMap_eq_some]
  constructor
  · rintro ⟨k, v, hmem, hq, rfl⟩
    rw [c.key_row, c.rest_row]
    exact ⟨hmem, hq⟩
  · rintro ⟨hmem, hq⟩
    exact ⟨key r, c.rest r, by rwa [c.row_rest], hq, c.row_rest r⟩

/-- `SELECT … WHERE … ORDER BY id DESC`. -/
theorem orderBy_desc (scan : Scan R) (hp : ∀ r, p r = q (key r) (c.rest r)) :
    scan.orderBy (fun r => OrderDual.toDual (key r)) (T.rows.filter p) =
      listing c.row q (T.toMap c) := by
  refine scan.orderBy_eq (fun a ha b hb hkey => ?_) (listing_perm c hp) ?_
  · exact eq_of_key_eq (List.mem_filter.mp ha).1 (List.mem_filter.mp hb).1
      (OrderDual.toDual.injective hkey)
  · refine (Finset.pairwise_sort _ _).filterMap _ fun k j hkj r hr s hs => ?_
    obtain ⟨v, _, rfl⟩ := Option.map_eq_some_iff.mp hr
    obtain ⟨w, _, rfl⟩ := Option.map_eq_some_iff.mp hs
    rw [c.key_row, c.key_row, OrderDual.toDual_le_toDual]
    exact hkj

/-- `SELECT count(*) … WHERE …`. -/
theorem countP_eq (hp : ∀ r, p r = q (key r) (c.rest r)) :
    T.rows.countP p = (listing c.row q (T.toMap c)).length := by
  rw [List.countP_eq_length_filter, (listing_perm c hp).length_eq]

end Queries

end Table

end IsalesApi.Foundation

import IsalesApi.Foundation.Table

/-!
# Pages of an ordered query

A list is shown page by page, each page by a query of its own: `ORDER BY`, then
`OFFSET` and `LIMIT`. Rows that the order leaves tied come in whatever order a
query meets them, and two queries need not meet them alike. When the key tells
the rows apart the pages are cut out of one list. Otherwise they tile the rows
exactly when no group of tied rows crosses the seam of two pages.
-/

namespace IsalesApi.Foundation

universe u v

/-! ## Pages of one list -/

section Pages

variable {R : Type u}

/-- `OFFSET (page - 1) * size LIMIT size`. -/
def pageOf (page size : Nat) (l : List R) : List R := (l.drop ((page - 1) * size)).take size

/-- `ceil(total / size)`. -/
def pageCount (total size : Nat) : Nat := (total + size - 1) / size

theorem length_pageOf (page size : Nat) (l : List R) :
    (pageOf page size l).length = min size (l.length - (page - 1) * size) := by
  simp [pageOf]

theorem pageOf_sublist (page size : Nat) (l : List R) : (pageOf page size l).Sublist l :=
  (List.take_sublist _ _).trans (List.drop_sublist _ _)

theorem take_append_pageOf (n size : Nat) (l : List R) :
    l.take (n * size) ++ pageOf (n + 1) size l = l.take ((n + 1) * size) := by
  rw [pageOf, Nat.add_sub_cancel, Nat.succ_mul, List.take_add]

/-- The first `n` pages of a list. -/
theorem flatMap_pageOf (n size : Nat) (l : List R) :
    ((List.range n).flatMap fun k => pageOf (k + 1) size l) = l.take (n * size) := by
  induction n with
  | zero => simp
  | succ n ih => rw [List.range_succ, List.flatMap_append, ih, List.flatMap_singleton,
      take_append_pageOf]

theorem pageCount_le_iff {total size n : Nat} (hsize : 0 < size) :
    pageCount total size ≤ n ↔ total ≤ n * size := by
  unfold pageCount
  rw [← Nat.lt_succ_iff, Nat.div_lt_iff_lt_mul hsize, Nat.succ_mul]
  omega

theorem le_pageCount_mul {size : Nat} (hsize : 0 < size) (total : Nat) :
    total ≤ pageCount total size * size := (pageCount_le_iff hsize).mp le_rfl

theorem lt_pageCount_iff {total size n : Nat} (hsize : 0 < size) :
    n < pageCount total size ↔ n * size < total := by
  rw [← not_le, pageCount_le_iff hsize, not_le]

/-- All pages of a list. -/
theorem flatMap_pageOf_all {size : Nat} (hsize : 0 < size) (l : List R) :
    ((List.range (pageCount l.length size)).flatMap fun k => pageOf (k + 1) size l) = l := by
  rw [flatMap_pageOf, List.take_of_length_le (le_pageCount_mul hsize _)]

theorem pageOf_map {S : Type v} (g : R → S) (page size : Nat) (l : List R) :
    pageOf page size (l.map g) = (pageOf page size l).map g := by
  simp only [pageOf, List.map_take, List.map_drop]

/-- Every page but the last is full. -/
theorem length_pageOf_of_lt {k size : Nat} {l : List R} (hsize : 0 < size)
    (hpage : k + 1 < pageCount l.length size) : (pageOf (k + 1) size l).length = size := by
  rw [lt_pageCount_iff hsize, Nat.succ_mul] at hpage
  rw [length_pageOf, Nat.add_sub_cancel]
  omega

theorem getElem_mem_pageOf {k size i : Nat} {l : List R} (hi : i < l.length)
    (hlow : k * size ≤ i) (hhigh : i < (k + 1) * size) : l[i] ∈ pageOf (k + 1) size l := by
  rw [Nat.succ_mul] at hhigh
  rw [List.mem_iff_getElem]
  refine ⟨i - k * size, ?_, ?_⟩
  · rw [length_pageOf, Nat.add_sub_cancel]
    omega
  · simp only [pageOf, Nat.add_sub_cancel, List.getElem_take, List.getElem_drop,
      Nat.add_sub_cancel' hlow]

/-- A page after the last is empty. -/
theorem pageOf_of_gt {page size : Nat} {l : List R} (hsize : 0 < size)
    (hpage : pageCount l.length size < page) : pageOf page size l = [] := by
  rw [pageOf, List.drop_of_length_le, List.take_nil]
  exact (pageCount_le_iff hsize).mp (Nat.le_sub_one_of_lt hpage)

end Pages

/-! ## `ORDER BY` and what it leaves open -/

/-- The order in which a query meets the rows. It decides among tied rows. -/
structure Scan (R : Type u) where
  order : List R → List R
  perm : ∀ l, (order l).Perm l

namespace Scan

variable {R : Type u} {α : Type v} [LinearOrder α] {f : R → α} {l l' : List R}

/-- `ORDER BY f`. -/
def orderBy (scan : Scan R) (f : R → α) (l : List R) : List R :=
  (scan.order l).insertionSort fun a b => f a ≤ f b

theorem orderBy_perm (scan : Scan R) (f : R → α) (l : List R) : (scan.orderBy f l).Perm l :=
  (List.perm_insertionSort _ _).trans (scan.perm l)

theorem orderBy_pairwise (scan : Scan R) (f : R → α) (l : List R) :
    (scan.orderBy f l).Pairwise fun a b => f a ≤ f b := Table.pairwise_insertionSort_key f _

/-- A key that tells the rows apart orders them strictly. -/
theorem orderBy_pairwise_lt (scan : Scan R) (hf : ∀ a ∈ l, ∀ b ∈ l, f a = f b → a = b)
    (hl : l.Nodup) : (scan.orderBy f l).Pairwise fun a b => f a < f b := by
  have hperm := scan.orderBy_perm f l
  refine ((scan.orderBy_pairwise f l).and (hperm.nodup_iff.mpr hl)).imp_of_mem ?_
  rintro a b ha hb ⟨hle, hne⟩
  exact lt_of_le_of_ne hle fun heq => hne (hf a (hperm.mem_iff.mp ha) b (hperm.mem_iff.mp hb) heq)

/-- A key that tells the rows apart leaves nothing open. -/
theorem orderBy_eq (scan : Scan R) (hf : ∀ a ∈ l, ∀ b ∈ l, f a = f b → a = b)
    (hperm : l'.Perm l) (hsorted : l'.Pairwise fun a b => f a ≤ f b) :
    scan.orderBy f l = l' := by
  have hanti : ∀ a b, a ∈ scan.orderBy f l → b ∈ l' → f a ≤ f b → f b ≤ f a → a = b := by
    intro a b ha hb hab hba
    exact hf a ((scan.orderBy_perm f l).mem_iff.mp ha) b (hperm.mem_iff.mp hb)
      (le_antisymm hab hba)
  exact List.Perm.eq_of_pairwise hanti (scan.orderBy_pairwise f l) hsorted
    ((scan.orderBy_perm f l).trans hperm.symm)

open Classical in
/-- Every order the `ORDER BY` permits is the order of some scan. -/
theorem exists_orderBy_eq (hperm : l'.Perm l) (hsorted : l'.Pairwise fun a b => f a ≤ f b) :
    ∃ scan : Scan R, scan.orderBy f l = l' := by
  refine ⟨⟨fun m => if m = l then l' else m, fun m => ?_⟩, ?_⟩
  · by_cases hm : m = l
    · rw [if_pos hm, hm]
      exact hperm
    · rw [if_neg hm]
  · show List.insertionSort _ (if l = l then l' else l) = l'
    rw [if_pos rfl]
    exact hsorted.insertionSort_eq

/-- What the rows are ordered by comes out the same in all scans. -/
theorem map_orderBy (scan scan' : Scan R) (f : R → α) (l : List R) :
    (scan.orderBy f l).map f = (scan'.orderBy f l).map f := by
  have hperm := ((scan.orderBy_perm f l).trans (scan'.orderBy_perm f l).symm).map f
  refine List.Perm.eq_of_pairwise (fun a b _ _ => le_antisymm) ?_ ?_ hperm
  · exact List.pairwise_map.mpr (scan.orderBy_pairwise f l)
  · exact List.pairwise_map.mpr (scan'.orderBy_pairwise f l)

end Scan

/-! ## Seams -/

section Seams

variable {R : Type u} {α : Type v} [LinearOrder α] {f : R → α} {l l₁ l₂ : List R} {b : Nat}

/-- Rows that tie lie on both sides of the seam before the row at `b`. -/
def Straddles (f : R → α) (l : List R) (b : Nat) : Prop :=
  ∃ d, l.countP (fun r => f r < d) < b ∧ b < l.countP fun r => f r ≤ d

/-- The smaller rows of an ordered list come first. -/
theorem filter_lt_eq_take (h : l.Pairwise fun a b => f a ≤ f b) (d : α) :
    l.filter (fun r => f r < d) = l.take (l.countP fun r => f r < d) := by
  induction l with
  | nil => rfl
  | cons a l ih =>
    obtain ⟨hhead, htail⟩ := List.pairwise_cons.mp h
    by_cases ha : f a < d
    · simp [ha, ih htail]
    · have hnone : ∀ r ∈ a :: l, ¬ f r < d := by
        intro r hr
        rcases List.mem_cons.mp hr with rfl | hr
        · exact ha
        · exact not_lt_of_ge ((not_lt.mp ha).trans (hhead r hr))
      rw [List.filter_eq_nil_iff.mpr (by simpa using hnone),
        List.countP_eq_zero.mpr (by simpa using hnone), List.take_zero]

theorem countP_le_of_drop {p : R → Bool} (h : ∀ r ∈ l.drop b, ¬ p r = true) :
    l.countP p ≤ b := by
  calc l.countP p = (l.take b).countP p + (l.drop b).countP p := by
        rw [← List.countP_append, List.take_append_drop]
    _ ≤ b := by
        rw [List.countP_eq_zero.mpr h]
        exact List.countP_le_length.trans (List.length_take_le _ _)

theorem le_countP_of_take {p : R → Bool} (hb : b ≤ l.length) (h : ∀ r ∈ l.take b, p r = true) :
    b ≤ l.countP p := by
  calc b = (l.take b).countP p := by
        rw [List.countP_eq_length.mpr h, List.length_take_of_le hb]
    _ ≤ l.countP p := (List.take_sublist _ _).countP_le

theorem le_of_mem_drop (h : l.Pairwise fun a b => f a ≤ f b) (hb : b < l.length) :
    ∀ r ∈ l.drop b, f l[b] ≤ f r := by
  rw [List.drop_eq_getElem_cons hb]
  intro r hr
  rcases List.mem_cons.mp hr with rfl | hr
  · exact le_rfl
  · have htail := h.sublist (List.drop_sublist b l)
    rw [List.drop_eq_getElem_cons hb] at htail
    exact (List.pairwise_cons.mp htail).1 r hr

theorem le_of_mem_take (h : l.Pairwise fun a b => f a ≤ f b) (hb : b < l.length) :
    ∀ r ∈ l.take (b + 1), f r ≤ f l[b] := by
  rw [List.take_succ_eq_append_getElem hb]
  intro r hr
  rcases List.mem_append.mp hr with hr | hr
  · have hinit := h.sublist (List.take_sublist (b + 1) l)
    rw [List.take_succ_eq_append_getElem hb] at hinit
    exact (List.pairwise_append.mp hinit).2.2 r hr _ (List.mem_singleton_self _)
  · rw [List.mem_singleton.mp hr]

/-- A seam that nothing straddles lies where a new value starts. -/
theorem countP_lt_eq_of_not_straddles (h : l.Pairwise fun a b => f a ≤ f b)
    (hseam : ¬ Straddles f l b) (hb : b < l.length) :
    l.countP (fun r => f r < f l[b]) = b := by
  have hbefore : b + 1 ≤ l.countP fun r => f r ≤ f l[b] :=
    le_countP_of_take hb fun r hr => by simpa using le_of_mem_take h hb r hr
  apply le_antisymm
  · exact countP_le_of_drop fun r hr => by simpa using le_of_mem_drop h hb r hr
  · by_contra hlt
    exact hseam ⟨f l[b], not_le.mp hlt, hbefore⟩

theorem take_perm_take (h₁ : l₁.Pairwise fun a b => f a ≤ f b)
    (h₂ : l₂.Pairwise fun a b => f a ≤ f b) (hperm : l₁.Perm l₂) (hseam : ¬ Straddles f l₁ b) :
    (l₁.take b).Perm (l₂.take b) := by
  rcases Nat.lt_or_ge b l₁.length with hb | hb
  · have hcount := countP_lt_eq_of_not_straddles h₁ hseam hb
    have hcount' : l₂.countP (fun r => f r < f l₁[b]) = b := by rw [← hperm.countP_eq, hcount]
    have htake := filter_lt_eq_take h₁ (f l₁[b])
    have htake' := filter_lt_eq_take h₂ (f l₁[b])
    rw [hcount] at htake
    rw [hcount'] at htake'
    rw [← htake, ← htake']
    exact hperm.filter _
  · rw [List.take_of_length_le hb, List.take_of_length_le (hperm.length_eq ▸ hb)]
    exact hperm

theorem straddles_of_perm (hperm : l₁.Perm l₂) (h : Straddles f l₁ b) : Straddles f l₂ b := by
  obtain ⟨d, hlt, hle⟩ := h
  exact ⟨d, hperm.countP_eq _ ▸ hlt, hperm.countP_eq _ ▸ hle⟩

/-- A page between two seams that nothing straddles has the same rows in every
order the key permits. -/
theorem pageOf_perm {size : Nat} (h₁ : l₁.Pairwise fun a b => f a ≤ f b)
    (h₂ : l₂.Pairwise fun a b => f a ≤ f b) (hperm : l₁.Perm l₂)
    (hseam : ∀ n, ¬ Straddles f l₁ (n * size)) (k : Nat) :
    (pageOf (k + 1) size l₁).Perm (pageOf (k + 1) size l₂) := by
  have hstart := take_perm_take h₁ h₂ hperm (hseam k)
  have hstop := take_perm_take h₁ h₂ hperm (hseam (k + 1))
  rw [← take_append_pageOf, ← take_append_pageOf] at hstop
  exact (List.perm_append_left_iff _).mp (((hstart.append_right _).symm).trans hstop)

/-- The row before a straddled seam and the row after it tie. -/
theorem tie_of_straddles (h : l.Pairwise fun a b => f a ≤ f b) (hseam : Straddles f l b) :
    ∃ before x y after, l = before ++ x :: y :: after ∧ before.length + 1 = b ∧ f x = f y := by
  obtain ⟨d, hlt, hle⟩ := hseam
  have hb : b < l.length := hle.trans_le List.countP_le_length
  obtain ⟨c, rfl⟩ := Nat.exists_eq_succ_of_ne_zero (Nat.ne_of_gt (Nat.zero_lt_of_lt hlt))
  have hc : c < l.length := Nat.lt_of_succ_lt hb
  have hbefore : d ≤ f l[c] := by
    by_contra hlow
    refine absurd (le_countP_of_take hc fun r hr => ?_) (not_le.mpr hlt)
    simpa using (le_of_mem_take h hc r hr).trans_lt (not_le.mp hlow)
  have hafter : f l[c + 1] ≤ d := by
    by_contra hhigh
    refine absurd (countP_le_of_drop fun r hr => ?_) (not_le.mpr hle)
    simpa using (not_le.mp hhigh).trans_le (le_of_mem_drop h hb r hr)
  refine ⟨l.take c, l[c], l[c + 1], l.drop (c + 2), ?_, ?_, ?_⟩
  · rw [← List.drop_eq_getElem_cons hb, ← List.drop_eq_getElem_cons hc, List.take_append_drop]
  · rw [List.length_take_of_le hc.le]
  · exact le_antisymm (List.pairwise_iff_getElem.mp h c (c + 1) hc hb (Nat.lt_succ_self c))
      (hafter.trans hbefore)

end Seams

/-! ## Pages of a table -/

section Shown

variable {R : Type u} {α : Type v} [LinearOrder α]

/-- What the pages show, one after the other, each with a scan of its own. -/
def shown (f : R → α) (l : List R) (size : Nat) (scans : Nat → Scan R) : List R :=
  (List.range (pageCount l.length size)).flatMap fun k =>
    pageOf (k + 1) size ((scans k).orderBy f l)

variable {f : R → α} {l : List R} {size : Nat}

/-- **The pages are in order**, whatever the scans are. -/
theorem shown_pairwise (hsize : 0 < size) (scans : Nat → Scan R) :
    (shown f l size scans).Pairwise fun a b => f a ≤ f b := by
  have hmap : (shown f l size scans).map f = ((scans 0).orderBy f l).map f := by
    rw [shown, List.map_flatMap]
    simp only [← pageOf_map, fun k => Scan.map_orderBy (scans k) (scans 0) f l]
    have hlength : l.length = (((scans 0).orderBy f l).map f).length := by
      rw [List.length_map, ((scans 0).orderBy_perm f l).length_eq]
    rw [hlength, flatMap_pageOf_all hsize]
  rw [← List.pairwise_map, hmap, List.pairwise_map]
  exact (scans 0).orderBy_pairwise f l

theorem shown_perm (hsize : 0 < size) (hseam : ∀ n, ¬ Straddles f l (n * size))
    (scans : Nat → Scan R) : (shown f l size scans).Perm l := by
  have hpage : ∀ k, (pageOf (k + 1) size ((scans k).orderBy f l)).Perm
      (pageOf (k + 1) size ((scans 0).orderBy f l)) := by
    intro k
    have hperm := (scans k).orderBy_perm f l
    refine pageOf_perm ((scans k).orderBy_pairwise f l) ((scans 0).orderBy_pairwise f l)
      (hperm.trans ((scans 0).orderBy_perm f l).symm) (fun n hn => ?_) k
    exact hseam n (straddles_of_perm hperm hn)
  have hlength := ((scans 0).orderBy_perm f l).length_eq
  refine (List.Perm.flatMap_left _ fun k _ => hpage k).trans ?_
  rw [← hlength, flatMap_pageOf_all hsize]
  exact (scans 0).orderBy_perm f l

/-- Two scans that differ in a tie across a seam show a row twice. -/
theorem exists_shown_duplicate (hsize : 0 < size) {n : Nat} (hseam : Straddles f l (n * size)) :
    ∃ scans : Nat → Scan R, ¬ (shown f l size scans).Nodup := by
  let scan : Scan R := ⟨id, fun _ => List.Perm.rfl⟩
  have hsorted := scan.orderBy_pairwise f l
  have hperm := scan.orderBy_perm f l
  obtain ⟨before, x, y, after, hsplit, hbefore, htie⟩ :=
    tie_of_straddles hsorted (straddles_of_perm hperm.symm hseam)
  rw [hsplit] at hsorted hperm
  obtain ⟨scan', hsplit'⟩ : ∃ scan' : Scan R, scan'.orderBy f l = before ++ y :: x :: after := by
    refine Scan.exists_orderBy_eq (((List.Perm.swap x y after).append_left before).trans hperm) ?_
    simpa [List.pairwise_append, htie, and_comm, and_left_comm, and_assoc] using hsorted
  have hlast : n < pageCount l.length size := by
    rw [lt_pageCount_iff hsize, ← hperm.length_eq, ← hbefore]
    simp
  obtain ⟨m, rfl⟩ : ∃ m, n = m + 1 :=
    Nat.exists_eq_add_one_of_ne_zero fun hn => by simp [hn] at hbefore
  have hstop : (m + 1) * size = m * size + size := Nat.succ_mul m size
  have hstop' : (m + 1 + 1) * size = (m + 1) * size + size := Nat.succ_mul (m + 1) size
  -- the row before the seam is on the page before it and, scanned the other way, after it
  have hpage : x ∈ pageOf (m + 1) size (before ++ x :: y :: after) := by
    have hi : before.length < (before ++ x :: y :: after).length := by simp
    have hx : (before ++ x :: y :: after)[before.length] ∈ pageOf (m + 1) size _ :=
      getElem_mem_pageOf hi (by omega) (by omega)
    simpa using hx
  have hpage' : x ∈ pageOf (m + 1 + 1) size (before ++ y :: x :: after) := by
    have hi : before.length + 1 < (before ++ y :: x :: after).length := by simp
    have hx : (before ++ y :: x :: after)[before.length + 1] ∈ pageOf (m + 1 + 1) size _ :=
      getElem_mem_pageOf hi (by omega) (by omega)
    simpa using hx
  refine ⟨fun k => if k = m then scan else scan', fun hnodup => ?_⟩
  have hdisjoint := List.pairwise_iff_getElem.mp (List.nodup_flatMap.mp hnodup).2 m (m + 1)
    (by simpa using Nat.lt_of_succ_lt hlast) (by simpa using hlast) (Nat.lt_succ_self m)
  simp only [List.getElem_range, Function.onFun, if_true, Nat.succ_ne_self, if_false, hsplit,
    hsplit'] at hdisjoint
  exact hdisjoint hpage hpage'

/-- **No row is shown twice exactly when no tie crosses a seam.** Then every row is
shown (`shown_perm`). -/
theorem shown_nodup_iff (hl : l.Nodup) (hsize : 0 < size) :
    (∀ scans : Nat → Scan R, (shown f l size scans).Nodup) ↔
      ∀ n, ¬ Straddles f l (n * size) := by
  constructor
  · intro h n hseam
    obtain ⟨scans, hdup⟩ := exists_shown_duplicate hsize hseam
    exact hdup (h scans)
  · intro h scans
    exact (shown_perm hsize h scans).nodup_iff.mpr hl

end Shown

end IsalesApi.Foundation

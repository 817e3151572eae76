import IsalesApi.Listings.Handlers

/-!
# The pages of the holiday list

Holidays are listed by date, and a date may have a holiday in several regions.
The pages are in order of date whatever the database does with such rows. They
show each holiday once exactly when no date has holidays on both sides of a page
boundary.
-/

namespace IsalesApi.Listings

open Foundation Python

/-- What a client gets that asks for the pages from the first to
`ceil(total / page_size)`. -/
def crawl {D : Type} (respond : Nat → Page D) (pageSize : Nat) : List D :=
  (List.range (pageCount (respond 1).total pageSize)).flatMap fun k => (respond (k + 1)).items

/-- The holidays of the region, or all. -/
def matching (region : Option String) (holidays : Table Holiday) : List Holiday :=
  holidays.select fun h => region.all fun r => h.region = r

/-- The pages show every matching holiday once, in order of date; `scans k` is
how the database goes about page `k`. -/
def Partitions (region : Option String) (pageSize : Nat) (holidays : Table Holiday)
    (scans : Nat → Scan Holiday) : Prop :=
  ∃ rows : List Holiday, rows.Perm (matching region holidays) ∧
    rows.Pairwise (fun a b => a.date ≤ b.date) ∧
    crawl (fun page => listHolidays (scans page) region page pageSize holidays) pageSize =
      rows.map Holiday.toRead

section Partitions

variable {region : Option String} {pageSize : Nat} {holidays : Table Holiday}
  {scans : Nat → Scan Holiday}

theorem filter_whereEq_region : (holidays.rows.filter fun r =>
    (whereEq Holiday.region region).all fun p => p r) = matching region holidays := by
  cases region <;> simp [whereEq, matching, Table.select]

theorem matching_nodup : (matching region holidays).Nodup :=
  (List.Nodup.of_map key holidays.unique).sublist List.filter_sublist

/-- The client gets what the pages show. -/
theorem crawl_listHolidays :
    crawl (fun page => listHolidays (scans page) region page pageSize holidays) pageSize =
      (shown Holiday.date (matching region holidays) pageSize fun k => scans (k + 1)).map
        Holiday.toRead := by
  have htotal : (listHolidays (scans 1) region 1 pageSize holidays).total =
      (matching region holidays).length := by
    rw [← filter_whereEq_region, ← List.countP_eq_length_filter]
    rfl
  rw [crawl, htotal, shown, List.map_flatMap]
  simp only [listHolidays, Page.map, listRows, filter_whereEq_region]

/-- Rows with different ids read differently. -/
theorem nodup_of_crawl {rows : List Holiday} (hrows : rows.Perm (matching region holidays))
    {l : List Holiday} (h : l.map Holiday.toRead = rows.map Holiday.toRead) : l.Nodup := by
  have hids : l.map Holiday.id = rows.map Holiday.id := by
    have hread := congrArg (List.map HolidayRead.id) h
    rw [List.map_map, List.map_map] at hread
    exact hread
  have hunique : ((matching region holidays).map Holiday.id).Nodup :=
    (List.filter_sublist.map Holiday.id).nodup holidays.unique
  refine List.Nodup.of_map Holiday.id ?_
  rw [hids]
  exact (hrows.map Holiday.id).nodup_iff.mpr hunique

/-- **The pages are in order of date**, also when they do not partition the
table. -/
theorem crawl_dates_sorted (hsize : 0 < pageSize) : ∃ rows : List Holiday,
    rows.Pairwise (fun a b => a.date ≤ b.date) ∧
      crawl (fun page => listHolidays (scans page) region page pageSize holidays) pageSize =
        rows.map Holiday.toRead :=
  ⟨_, shown_pairwise hsize _, crawl_listHolidays⟩

end Partitions

/-- **The pages partition the table exactly when no page boundary runs through
the holidays of one date.** -/
theorem holidays_partition_iff (holidays : Table Holiday) (region : Option String)
    (pageSize : Nat) (hsize : 0 < pageSize) :
    (∀ scans : Nat → Scan Holiday, Partitions region pageSize holidays scans) ↔
      ∀ (n : Nat) (d : Date),
        ¬ ((matching region holidays).countP (fun h => h.date < d) < n * pageSize ∧
          n * pageSize < (matching region holidays).countP fun h => h.date ≤ d) := by
  have hseams : (∀ (n : Nat) (d : Date),
      ¬ ((matching region holidays).countP (fun h => h.date < d) < n * pageSize ∧
        n * pageSize < (matching region holidays).countP fun h => h.date ≤ d)) ↔
      ∀ n, ¬ Straddles Holiday.date (matching region holidays) (n * pageSize) :=
    forall_congr' fun n => not_exists.symm
  rw [hseams, ← shown_nodup_iff matching_nodup hsize]
  constructor
  · intro h scans
    obtain ⟨rows, hrows, _, hcrawl⟩ := h fun page => scans (page - 1)
    exact nodup_of_crawl hrows (crawl_listHolidays.symm.trans hcrawl)
  · intro h scans
    have hseam := (shown_nodup_iff matching_nodup hsize).mp h
    exact ⟨_, shown_perm hsize hseam fun k => scans (k + 1), shown_pairwise hsize _,
      crawl_listHolidays⟩

def stamp : Auth.DateTime := ⟨1764547200000000, by decide, by decide⟩

def newYear : Date := ⟨2026, 1, 1, by decide, by decide, by decide⟩

/-- One date in two regions. -/
def newYears : Table Holiday where
  rows := [⟨1, newYear, "元旦", "CN", stamp, stamp⟩, ⟨2, newYear, "New Year", "HK", stamp, stamp⟩]
  unique := by decide

/-- Page 2 is scanned the other way round. -/
def flipped (page : Nat) : Scan Holiday :=
  if page = 2 then ⟨List.reverse, List.reverse_perm⟩ else ⟨id, fun _ => List.Perm.rfl⟩

theorem holidays_partition_newYears : Partitions none 2 newYears flipped := by
  refine (holidays_partition_iff newYears none 2 (by decide)).mpr ?_ flipped
  rintro n d ⟨hlow, hhigh⟩
  have htotal : (matching none newYears).countP (fun h => h.date ≤ d) ≤ 2 := List.countP_le_length
  omega

/-- With one holiday a page, the first is shown twice and the second not at
all. -/
theorem newYears_not_partitioned : 0 < 1 ∧ ¬ Partitions none 1 newYears flipped := by
  refine ⟨by decide, ?_⟩
  rintro ⟨rows, hrows, _, hcrawl⟩
  have hids : rows.map Holiday.id = [1, 1] := by
    have hread := congrArg (List.map HolidayRead.id) hcrawl
    rw [List.map_map] at hread
    exact hread.symm
  have hperm := hrows.map Holiday.id
  rw [hids] at hperm
  exact absurd hperm (by decide)

end IsalesApi.Listings

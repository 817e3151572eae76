import IsalesApi.Credentials.LastWriter

/-!
# The stamp of a credential

The listing shows three things of the write a row comes from: the masked value,
`updated_by` and `updated_at`. The insert branch of the upsert sets all three,
the conflict branch the first two. So the stamp of a row is that of its first
write, and it is the stamp of the last one exactly when no stored key is written
again.
-/

namespace IsalesApi.Credentials

open Foundation Auth

def Call.time : Call → Option Timestamp
  | .upsert r => some r.now
  | .delete _ => none

def Call.upsertOf (k : Key) : Call → Option UpsertRequest
  | .upsert r => if r.credKey = k then some r else none
  | .delete _ => none

/-- The last request of a history that upserts the key. -/
def lastUpsertOf (h : List (Call × Answer)) (k : Key) : Option UpsertRequest :=
  h.foldl (fun last x => x.1.upsertOf k <|> last) none

/-- An entry of the listing shows this write. -/
structure Describes (store : CredentialStore) (r : UpsertRequest) (e : ProviderCredentialRead) :
    Prop where
  maskedValue : e.maskedValue = store.mask r.body.plaintextValue
  updatedBy : e.updatedBy = sub r.user
  updatedAt : e.updatedAt = r.now

/-- Every entry shows the last write of its key. -/
def Fresh (store : CredentialStore) (s : Served) : Prop :=
  ∀ e ∈ listCredentials store s.db, ∃ r, lastUpsertOf s.history e.credKey = some r ∧
    Describes store r e

/-- The request does not write a key that is stored. -/
def Call.FirstWrite (db : Database) : Call → Prop
  | .upsert r => db.byKey r.credKey = none
  | .delete _ => True

/-! ## The last upsert of a key -/

section Last

variable {h : List (Call × Answer)} {a : Answer} {k : Key} {r : UpsertRequest}

theorem lastUpsertOf_snoc (c : Call) :
    lastUpsertOf (h ++ [(c, a)]) k = (c.upsertOf k <|> lastUpsertOf h k) := by
  simp [lastUpsertOf]

theorem lastUpsertOf_upsert : lastUpsertOf (h ++ [(.upsert r, a)]) r.credKey = some r := by
  rw [lastUpsertOf_snoc, Call.upsertOf, if_pos rfl]
  rfl

theorem lastUpsertOf_upsert_ne (hk : k ≠ r.credKey) :
    lastUpsertOf (h ++ [(.upsert r, a)]) k = lastUpsertOf h k := by
  rw [lastUpsertOf_snoc, Call.upsertOf, if_neg (Ne.symm hk)]
  rfl

theorem lastUpsertOf_delete (id : Int) :
    lastUpsertOf (h ++ [(.delete id, a)]) k = lastUpsertOf h k := by
  rw [lastUpsertOf_snoc]
  rfl

theorem credKey_lastUpsertOf (hr : lastUpsertOf h k = some r) : r.credKey = k := by
  induction h using List.reverseRecOn with
  | nil => cases hr
  | append_singleton h x ih =>
    obtain ⟨c, a⟩ := x
    cases c with
    | delete id => exact ih ((lastUpsertOf_delete id).symm.trans hr)
    | upsert r' =>
      by_cases hk : k = r'.credKey
      · subst hk
        rw [lastUpsertOf_upsert] at hr
        cases hr
        rfl
      · exact ih ((lastUpsertOf_upsert_ne hk).symm.trans hr)

end Last

/-- The allow-lists look at the key only. -/
theorem UpsertRequest.Allowed.of_credKey {r r' : UpsertRequest} (h : r.credKey = r'.credKey)
    (hr : r.Allowed) : r'.Allowed := by
  have hprovider : r.body.providerId = r'.body.providerId := congrArg Prod.fst h
  have hfield : r.body.fieldName = r'.body.fieldName := congrArg Prod.snd h
  exact ⟨hprovider ▸ hr.1, hfield ▸ hr.2⟩

/-! ## Two of the three always agree -/

/-- The masked value and `updated_by` of a row are those of the last upsert of its
key, and its stamp is earlier than every upsert to come. -/
structure Written (store : CredentialStore) (s : Served) (calls : List Call) : Prop where
  last : ∀ k row, s.db.byKey k = some row → ∃ r, lastUpsertOf s.history k = some r ∧ r.Allowed ∧
    (toRead store row).maskedValue = store.mask r.body.plaintextValue ∧
    row.updatedBy = sub r.user
  earlier : ∀ k row, s.db.byKey k = some row → ∀ r, .upsert r ∈ calls → row.updatedAt < r.now
  clock : (calls.filterMap Call.time).Pairwise (· < ·)

theorem updatedAt_written {v : Values} {db : Database} :
    (v.written db).updatedAt = ((db.byKey v.key).map ProviderCredential.updatedAt).getD v.now := by
  unfold Values.written
  cases db.byKey v.key <;> rfl

variable {store : CredentialStore}

theorem fresh_iff {s : Served} : Fresh store s ↔ ∀ k row, s.db.byKey k = some row →
    ∃ r, lastUpsertOf s.history k = some r ∧ Describes store r (toRead store row) := by
  constructor
  · intro h k row hrow
    obtain ⟨hmem, rfl⟩ := mem_of_byKey.mp hrow
    exact h _ (mem_listCredentials.mpr ⟨row, hmem, rfl⟩)
  · intro h e he
    obtain ⟨row, hmem, rfl⟩ := mem_listCredentials.mp he
    exact h _ row (byKey_credKey hmem)

theorem byKey_empty (k : Key) : Database.empty.byKey k = none :=
  Option.eq_none_iff_forall_ne_some.mpr fun r hr => Table.not_mem_empty r (mem_of_byKey.mp hr).1

theorem byKey_of_delete (store : CredentialStore) {id : Int} {db : Database} {k : Key}
    {row : ProviderCredential} (h : (serve store db (.delete id)).2.byKey k = some row) :
    db.byKey k = some row := by
  cases hrow : db.credential id with
  | none =>
    rw [serve_delete_unknown hrow] at h
    exact h
  | some r =>
    rw [serve_delete hrow, byKey_delete] at h
    exact (Option.filter_eq_some_iff.mp h).1

/-- A key that is not on the allow-lists has no row. -/
theorem Written.ne_of_refused {s : Served} {calls : List Call} (hs : Written store s calls)
    {r : UpsertRequest} (hr : ¬ r.Allowed) {k : Key} {row : ProviderCredential}
    (hrow : s.db.byKey k = some row) : k ≠ r.credKey := by
  rintro rfl
  obtain ⟨r', hlast, hallowed, _⟩ := hs.last _ row hrow
  exact hr (hallowed.of_credKey (credKey_lastUpsertOf hlast))

theorem Written.start {calls : List Call} (hclock : (calls.filterMap Call.time).Pairwise (· < ·)) :
    Written store Served.start calls where
  last := fun k _ hrow => absurd (hrow.symm.trans (byKey_empty k)) (Option.some_ne_none _)
  earlier := fun k _ hrow => absurd (hrow.symm.trans (byKey_empty k)) (Option.some_ne_none _)
  clock := hclock

theorem fresh_start : Fresh store Served.start :=
  fresh_iff.mpr fun k _ hrow => absurd (hrow.symm.trans (byKey_empty k)) (Option.some_ne_none _)

variable (hdecrypt : ∀ nonce text, store.decrypt (store.encrypt nonce text) = .ok text)

include hdecrypt in
theorem maskedValue_written {r : UpsertRequest} {db : Database} :
    (toRead store ((r.values store).written db)).maskedValue =
      store.mask r.body.plaintextValue := by
  show maskedValue store ((r.values store).written db).cipherText = _
  rw [cipherText_written]
  show maskedValue store (store.encrypt r.nonce r.body.plaintextValue) = _
  rw [maskedValue, hdecrypt]

/-! ### One request -/

section Step

variable {s s' : Served} {calls : List Call}

theorem Written.delete {id : Int} (hs : Written store s (.delete id :: calls))
    (h : s.step store (.delete id) = some s') : Written store s' calls := by
  cases h
  refine ⟨fun k row hrow => ?_, fun k row hrow r hr => ?_, hs.clock⟩
  · simp only [lastUpsertOf_delete]
    exact hs.last k row (byKey_of_delete store hrow)
  · exact hs.earlier k row (byKey_of_delete store hrow) r (List.mem_cons_of_mem _ hr)

theorem Fresh.delete {id : Int} (hfresh : Fresh store s)
    (h : s.step store (.delete id) = some s') : Fresh store s' := by
  cases h
  refine fresh_iff.mpr fun k row hrow => ?_
  simp only [lastUpsertOf_delete]
  exact fresh_iff.mp hfresh k row (byKey_of_delete store hrow)

variable {r : UpsertRequest}

theorem Written.clock_tail (hs : Written store s (.upsert r :: calls)) :
    (∀ r', .upsert r' ∈ calls → r.now < r'.now) ∧
      (calls.filterMap Call.time).Pairwise (· < ·) := by
  have hclock : (r.now :: calls.filterMap Call.time).Pairwise (· < ·) := hs.clock
  refine ⟨fun r' hr' => ?_, (List.pairwise_cons.mp hclock).2⟩
  exact (List.pairwise_cons.mp hclock).1 _ (List.mem_filterMap.mpr ⟨_, hr', rfl⟩)

/-- A refused upsert changes no row, and no row has its key. -/
theorem Written.refused (hs : Written store s (.upsert r :: calls)) (hallowed : ¬ r.Allowed)
    (h : s.step store (.upsert r) = some s') : Written store s' calls := by
  cases h
  obtain ⟨e, _, hserve⟩ := serve_upsert_refused store s.db hallowed
  simp only [hserve]
  refine ⟨fun k row hrow => ?_, fun k row hrow r' hr' => ?_, hs.clock_tail.2⟩
  · rw [lastUpsertOf_upsert_ne (hs.ne_of_refused hallowed hrow)]
    exact hs.last k row hrow
  · exact hs.earlier k row hrow r' (List.mem_cons_of_mem _ hr')

theorem Fresh.refused (hs : Written store s (.upsert r :: calls)) (hfresh : Fresh store s)
    (hallowed : ¬ r.Allowed) (h : s.step store (.upsert r) = some s') : Fresh store s' := by
  cases h
  obtain ⟨e, _, hserve⟩ := serve_upsert_refused store s.db hallowed
  refine fresh_iff.mpr ?_
  simp only [hserve]
  intro k row hrow
  rw [lastUpsertOf_upsert_ne (hs.ne_of_refused hallowed hrow)]
  exact fresh_iff.mp hfresh k row hrow

include hdecrypt in
/-- An upsert that is served: the row of its key is the one it writes. -/
theorem Written.upsert (hs : Written store s (.upsert r :: calls)) (hallowed : r.Allowed)
    (h : s.step store (.upsert r) = some s') : Written store s' calls := by
  cases h
  obtain ⟨db', hserve, hrows⟩ := serve_upsert store s.db hallowed
  simp only [hserve]
  obtain ⟨hlater, hclock⟩ := hs.clock_tail
  refine ⟨fun k row hrow => ?_, fun k row hrow r' hr' => ?_, hclock⟩
  · rw [hrows] at hrow
    by_cases hk : k = r.credKey
    · subst hk
      rw [if_pos rfl] at hrow
      cases hrow
      exact ⟨r, lastUpsertOf_upsert, hallowed, maskedValue_written hdecrypt, updatedBy_written⟩
    · rw [if_neg hk] at hrow
      rw [lastUpsertOf_upsert_ne hk]
      exact hs.last k row hrow
  · rw [hrows] at hrow
    by_cases hk : k = r.credKey
    · rw [if_pos hk] at hrow
      cases hrow
      rw [updatedAt_written]
      cases hold : s.db.byKey (r.values store).key with
      | none => exact hlater r' hr'
      | some old => exact hs.earlier _ old hold r' (List.mem_cons_of_mem _ hr')
    · rw [if_neg hk] at hrow
      exact hs.earlier k row hrow r' (List.mem_cons_of_mem _ hr')

include hdecrypt in
/-- It takes the insert branch, or else the row keeps its earlier stamp. -/
theorem Fresh.upsert_iff (hs : Written store s (.upsert r :: calls)) (hfresh : Fresh store s)
    (hallowed : r.Allowed) (h : s.step store (.upsert r) = some s') :
    Fresh store s' ↔ s.db.byKey r.credKey = none := by
  cases h
  obtain ⟨db', hserve, hrows⟩ := serve_upsert store s.db hallowed
  rw [fresh_iff]
  simp only [hserve]
  constructor
  · intro hfresh'
    have hrow : db'.byKey r.credKey = some ((r.values store).written s.db) :=
      (hrows r.credKey).trans (if_pos rfl)
    obtain ⟨r', hlast, hdescribes⟩ := hfresh' _ _ hrow
    rw [lastUpsertOf_upsert] at hlast
    cases hlast
    have hnow : ((r.values store).written s.db).updatedAt = r.now := hdescribes.updatedAt
    rw [updatedAt_written] at hnow
    refine Option.eq_none_iff_forall_ne_some.mpr fun old hold => ?_
    have hlt := hs.earlier _ old hold r List.mem_cons_self
    have hkept : s.db.byKey (r.values store).key = some old := hold
    rw [hkept] at hnow
    exact absurd hnow hlt.ne
  · intro hnew k row hrow
    rw [hrows] at hrow
    by_cases hk : k = r.credKey
    · subst hk
      rw [if_pos rfl] at hrow
      cases hrow
      have hnone : s.db.byKey (r.values store).key = none := hnew
      refine ⟨r, lastUpsertOf_upsert, maskedValue_written hdecrypt, updatedBy_written, ?_⟩
      show ((r.values store).written s.db).updatedAt = r.now
      rw [updatedAt_written, hnone]
      rfl
    · rw [if_neg hk] at hrow
      rw [lastUpsertOf_upsert_ne hk]
      exact fresh_iff.mp hfresh k row hrow

variable {c : Call}

include hdecrypt in
theorem Written.step (hs : Written store s (c :: calls)) (h : s.step store c = some s') :
    Written store s' calls := by
  cases c with
  | delete id => exact hs.delete h
  | upsert r =>
    by_cases hallowed : r.Allowed
    · exact hs.upsert hdecrypt hallowed h
    · exact hs.refused hallowed h

include hdecrypt in
/-- **What one request does to the stamps**: they stay those of the last upserts
exactly when it writes no stored key. -/
theorem fresh_step (hs : Written store s (c :: calls)) (hfresh : Fresh store s)
    (h : s.step store c = some s') : Fresh store s' ↔ c.FirstWrite s.db := by
  cases c with
  | delete id => exact iff_of_true (hfresh.delete h) trivial
  | upsert r =>
    by_cases hallowed : r.Allowed
    · exact hfresh.upsert_iff hdecrypt hs hallowed h
    · refine iff_of_true (hfresh.refused hs hallowed h) ?_
      exact Option.eq_none_iff_forall_ne_some.mpr fun row hrow =>
        hs.ne_of_refused hallowed hrow rfl

end Step

/-- **The stamps are fresh exactly when no stored key is written again**, in
every run at increasing times. -/
theorem stamps_fresh (store : CredentialStore)
    (hdecrypt : ∀ nonce text, store.decrypt (store.encrypt nonce text) = .ok text)
    (calls : List Call) (hclock : (calls.filterMap Call.time).Pairwise (· < ·)) :
    Always (Served.step store) (Fresh store) Served.start calls ↔
      Along (Served.step store) (fun s c => c.FirstWrite s.db) Served.start calls := by
  refine always_iff_along_ahead (I := Written store) (fun s c calls s' hs h => hs.step hdecrypt h)
    (fun s c calls s' hs hq h => fresh_step hdecrypt hs hq h) (Written.start hclock) fresh_start

/-- A key that is written, deleted and written again. -/
def recreated : List Call :=
  [.upsert ⟨⟨"dashscope", "api_key", "sk-aaaa"⟩, [("sub", .text "admin")], 0, 10⟩,
    .delete 1,
    .upsert ⟨⟨"dashscope", "api_key", "sk-bbbb"⟩, [("sub", .text "admin")], 1, 20⟩]

theorem stamps_fresh_recreated :
    Always (Served.step reversing) (Fresh reversing) Served.start recreated := by
  refine (stamps_fresh reversing (fun _ _ => by simp [reversing]) recreated (by decide)).mpr ?_
  rintro _ ⟨⟩
  refine ⟨rfl, ?_⟩
  rintro _ ⟨⟩
  refine ⟨trivial, ?_⟩
  rintro _ ⟨⟩
  exact ⟨rfl, trivial⟩

/-- The second of two writes of a key leaves the stamp of the first. -/
theorem rewritten_stale :
    (∀ nonce text, reversing.decrypt (reversing.encrypt nonce text) = .ok text) ∧
      (rewritten.filterMap Call.time).Pairwise (· < ·) ∧
      ¬ Always (Served.step reversing) (Fresh reversing) Served.start rewritten := by
  refine ⟨fun _ _ => by simp [reversing], by decide, fun h => ?_⟩
  have hlast := ((h.2 _ rfl).2 _ rfl).head
  obtain ⟨r, hr, hdescribes⟩ := hlast _ (mem_listCredentials.mpr ⟨_, List.mem_cons_self, rfl⟩)
  cases hr
  exact absurd hdescribes.updatedAt (by decide)

end IsalesApi.Credentials

import IsalesApi.Credentials.Handlers
import IsalesApi.Foundation.Ledger
import IsalesApi.Foundation.Transition

/-!
# The credential table is a last-writer map

Requests are served one after the other and their answers kept. The rows of the
table, read by key, are the `ledger` of that history: an upsert puts its answer
under its key with the id the row has, a delete drops an id. So the listing is
read off the history by the ledger rule.
-/

namespace IsalesApi.Credentials

open Foundation Auth

variable (store : CredentialStore)

inductive Call where
  | upsert (r : UpsertRequest)
  | delete (credId : Int)

inductive Answer where
  | read (e : ProviderCredentialRead)
  | noContent
  | error (e : HttpException)

def Answer.ofExcept {α : Type} (f : α → Answer) : Except HttpException α → Answer
  | .ok a => f a
  | .error e => .error e

/-- A request with its session: what is answered and what is left. -/
def serve (db : Database) : Call → Answer × Database
  | .upsert r =>
    let x := (upsertCredential store r).session db
    (.ofExcept .read x.1, x.2)
  | .delete credId =>
    let x := (deleteCredential credId).session db
    (.ofExcept (fun _ => .noContent) x.1, x.2)

structure Served where
  history : List (Call × Answer)
  db : Database

def Served.start : Served := ⟨[], .empty⟩

/-- One request after the other. -/
def Served.step (s : Served) (c : Call) : Option Served :=
  some ⟨s.history ++ [(c, (serve store s.db c).1)], (serve store s.db c).2⟩

/-! ## What a request does to the rows -/

section Rows

variable {db db' : Database} {k : Key}

theorem mem_of_byKey {r : ProviderCredential} :
    db.byKey k = some r ↔ r ∈ db.credentials ∧ r.credKey = k := Table.get?_eq_some

theorem byKey_credKey {r : ProviderCredential} (h : r ∈ db.credentials) :
    db.byKey r.credKey = some r := mem_of_byKey.mpr ⟨h, rfl⟩

theorem eq_of_id {r s : ProviderCredential} (hr : r ∈ db.credentials) (hs : s ∈ db.credentials)
    (h : r.id = s.id) : r = s := List.inj_on_of_nodup_map db.ids hr hs h

theorem credential_eq_some {id : Int} {r : ProviderCredential} :
    db.credential id = some r ↔ r ∈ db.credentials ∧ r.id = id := by
  constructor
  · intro h
    exact ⟨List.mem_of_find?_eq_some h, by simpa using List.find?_some h⟩
  · rintro ⟨hr, hid⟩
    cases hf : db.credential id with
    | none =>
      have hne := List.find?_eq_none.mp hf r hr
      simp [hid] at hne
    | some s =>
      have hs : s ∈ db.credentials := List.mem_of_find?_eq_some hf
      have hsid : s.id = id := by simpa using List.find?_some hf
      rw [eq_of_id hs hr (hsid.trans hid.symm)]

theorem credential_eq_none {id : Int} :
    db.credential id = none ↔ ∀ r ∈ db.credentials, r.id ≠ id := by
  rw [Option.eq_none_iff_forall_ne_some]
  constructor
  · intro h r hr hid
    exact h r (credential_eq_some.mpr ⟨hr, hid⟩)
  · intro h r hr
    obtain ⟨hr, hid⟩ := credential_eq_some.mp hr
    exact h r hr hid

theorem byKey_update (v : Values) :
    (db.update v).byKey k = if k = v.key then (db.byKey k).map v.assign else db.byKey k :=
  Table.get?_update v.key_assign (fun r => by simp [key]) k

theorem byKey_insert {v : Values} (h : db.insert v = some db') :
    db'.byKey k = if k = v.key then some (v.row db.nextId) else db.byKey k := by
  unfold Database.insert at h
  split at h
  · cases h
  · rename_i t ht
    cases h
    exact Table.get?_insert ht k

theorem byKey_delete (id : Int) :
    (db.delete id).byKey k = (db.byKey k).filter fun r => r.id ≠ id := by
  ext r
  simp only [mem_of_byKey, Option.filter_eq_some_iff, Database.delete, Table.mem_delete,
    decide_eq_true_eq, decide_eq_false_iff_not, ne_eq]
  tauto

theorem exists_insert {v : Values} (h : db.byKey v.key = none) :
    ∃ db', db.insert v = some db' := by
  have hfree : ∀ x ∈ db.credentials.rows, key x ≠ key (v.row db.nextId) :=
    Table.get?_eq_none.mp h
  unfold Database.insert
  split
  · rename_i hnone
    rw [Table.insert, dif_pos hfree] at hnone
    cases hnone
  · exact ⟨_, rfl⟩

/-- The row the upsert leaves under its key. -/
def Values.written (v : Values) (db : Database) : ProviderCredential :=
  match db.byKey v.key with
  | some r => v.assign r
  | none => v.row db.nextId

/-- The upsert statement is never refused, and it leaves the other keys alone. -/
theorem apply_upsert (v : Values) (db : Database) : ∃ db', db.apply (.upsert v) = some db' ∧
    ∀ k, db'.byKey k = if k = v.key then some (v.written db) else db.byKey k := by
  cases hold : db.byKey v.key with
  | some r =>
    have hwritten : v.written db = v.assign r := by simp only [Values.written, hold]
    refine ⟨db.update v, by simp only [Database.apply, hold], fun k => ?_⟩
    rw [byKey_update, hwritten]
    by_cases hk : k = v.key
    · rw [if_pos hk, if_pos hk, hk, hold]
      rfl
    · rw [if_neg hk, if_neg hk]
  | none =>
    have hwritten : v.written db = v.row db.nextId := by simp only [Values.written, hold]
    obtain ⟨db', hinsert⟩ := exists_insert hold
    refine ⟨db', by simp only [Database.apply, hold, hinsert], fun k => ?_⟩
    rw [byKey_insert hinsert, hwritten]

theorem credKey_written {v : Values} : (v.written db).credKey = v.key := by
  unfold Values.written
  cases hold : db.byKey v.key with
  | some r => exact (mem_of_byKey.mp hold).2
  | none => rfl

theorem cipherText_written {v : Values} : (v.written db).cipherText = v.cipherText := by
  unfold Values.written
  cases db.byKey v.key <;> rfl

theorem updatedBy_written {v : Values} : (v.written db).updatedBy = v.updatedBy := by
  unfold Values.written
  cases db.byKey v.key <;> rfl

/-- The conflict branch keeps the id. -/
theorem id_written {v : Values} {r : ProviderCredential} (h : db.byKey v.key = some r) :
    (v.written db).id = r.id := by
  unfold Values.written
  rw [h]
  rfl

end Rows

/-! ## The requests -/

section Requests

variable {store} {db : Database}

/-- An upsert outside the allow-lists is answered 422 and writes nothing. -/
theorem serve_upsert_refused (store : CredentialStore) (db : Database) {r : UpsertRequest}
    (h : ¬ r.Allowed) :
    ∃ e : HttpException, e.status = 422 ∧ serve store db (.upsert r) = (.error e, db) := by
  have herror : ∃ e : HttpException, e.status = 422 ∧
      (upsertCredential store r).run db = .error e := by
    unfold upsertCredential
    by_cases hp : r.body.providerId ∈ allowedProviderIds
    · have hf : r.body.fieldName ∉ allowedFieldNames := fun hf => h ⟨hp, hf⟩
      refine ⟨unknownFieldName r.body.fieldName, rfl, ?_⟩
      simp only [hp, hf, not_true_eq_false, not_false_eq_true, decide_true, decide_false,
        Prog.raiseIf, if_true, Bool.false_eq_true, if_false]
      rfl
    · refine ⟨unknownProviderId r.body.providerId, rfl, ?_⟩
      simp only [hp, not_false_eq_true, decide_true, Prog.raiseIf, if_true]
      rfl
  obtain ⟨e, hstatus, hrun⟩ := herror
  refine ⟨e, hstatus, ?_⟩
  have hsession : (upsertCredential store r).session db = (.error e, db) :=
    Prog.session_error.mpr ⟨hrun, rfl⟩
  simp only [serve, hsession, Answer.ofExcept]

/-- An allowed upsert is answered with the row it leaves under its key. -/
theorem serve_upsert (store : CredentialStore) (db : Database) {r : UpsertRequest}
    (h : r.Allowed) :
    ∃ db', serve store db (.upsert r) =
        (.read (toRead store ((r.values store).written db)), db') ∧
      ∀ k, db'.byKey k = if k = r.credKey then some ((r.values store).written db)
        else db.byKey k := by
  obtain ⟨db', happly, hrows⟩ := apply_upsert (r.values store) db
  refine ⟨db', ?_, hrows⟩
  have hwritten : db'.byKey r.credKey = some ((r.values store).written db) :=
    (hrows r.credKey).trans (if_pos rfl)
  have hrun : (upsertCredential store r).run db =
      .ok (toRead store ((r.values store).written db), db') := by
    unfold upsertCredential
    refine Prog.run_bind_ok.mpr ⟨(), db, Prog.run_raiseIf_ok.mpr ⟨by simp [h.1], rfl⟩, ?_⟩
    refine Prog.run_bind_ok.mpr ⟨(), db, Prog.run_raiseIf_ok.mpr ⟨by simp [h.2], rfl⟩, ?_⟩
    refine Prog.run_bind_ok.mpr ⟨(), db', Prog.run_exec_ok.mpr happly, ?_⟩
    rw [Prog.run_select_bind, hwritten]
    rfl
  have hsession := Prog.session_ok.mpr hrun
  simp only [serve, hsession, Answer.ofExcept]

theorem serve_delete_unknown {id : Int} (h : db.credential id = none) :
    serve store db (.delete id) = (.error (notFound "credential_not_found"), db) := by
  have hsession : (deleteCredential id).session db =
      (.error (notFound "credential_not_found"), db) :=
    Prog.session_error.mpr ⟨run_getOr404_none h, rfl⟩
  simp only [serve, hsession, Answer.ofExcept]

theorem serve_delete {id : Int} {r : ProviderCredential} (h : db.credential id = some r) :
    serve store db (.delete id) = (.noContent, db.delete id) := by
  have hrun : (deleteCredential id).run db = .ok ((), db.delete id) := by
    unfold deleteCredential
    rw [run_getOr404_some h, (credential_eq_some.mp h).2]
    exact Prog.run_exec_ok.mpr rfl
  have hsession := Prog.session_ok.mpr hrun
  simp only [serve, hsession, Answer.ofExcept]

end Requests

/-! ## The history and the table -/

/-- What a served request does to the map. -/
def effect : Call × Answer → Effect Key Int ProviderCredentialRead
  | (.upsert r, .read e) => .put r.credKey e.id e
  | (.delete credId, .noContent) => .drop credId
  | _ => .keep

theorem effect_eq_put {x : Call × Answer} {k : Key} {i : Int} {e : ProviderCredentialRead} :
    effect x = .put k i e ↔
      ∃ r : UpsertRequest, x = (.upsert r, .read e) ∧ r.credKey = k ∧ e.id = i := by
  obtain ⟨c, a⟩ := x
  cases c with
  | delete credId => cases a <;> simp [effect]
  | upsert r =>
    cases a with
    | noContent => simp [effect]
    | error e => simp [effect]
    | read e' =>
      constructor
      · rintro ⟨⟩
        exact ⟨r, rfl, rfl, rfl⟩
      · rintro ⟨r', ⟨⟩, rfl, rfl⟩
        rfl

theorem effect_eq_drop {x : Call × Answer} {i : Int} :
    effect x = .drop i ↔ x = (.delete i, .noContent) := by
  obtain ⟨c, a⟩ := x
  cases c <;> cases a <;> simp [effect]

/-- What the listing shows of a key, with the id of its row. -/
def entry (db : Database) (k : Key) : Option (Int × ProviderCredentialRead) :=
  (db.byKey k).map fun r => (r.id, toRead store r)

/-- Every answered upsert was allowed, and its answer shows what it has written. -/
def Answered (h : List (Call × Answer)) : Prop :=
  ∀ (r : UpsertRequest) (e : ProviderCredentialRead), (Call.upsert r, Answer.read e) ∈ h →
    r.Allowed ∧ e.credKey = r.credKey ∧ e.maskedValue = store.mask r.body.plaintextValue ∧
      e.updatedBy = sub r.user

/-- The invariant of a run. -/
structure Kept (s : Served) : Prop where
  ledger : entry store s.db = Foundation.ledger effect s.history
  answered : Answered store s.history

variable {store}

/-- One request acts on the table as its effect on the map. -/
theorem entry_serve (db : Database) (c : Call) :
    entry store (serve store db c).2 =
      (effect (c, (serve store db c).1)).act (entry store db) := by
  cases c with
  | upsert r =>
    by_cases hallowed : r.Allowed
    · obtain ⟨db', hserve, hrows⟩ := serve_upsert store db hallowed
      rw [hserve]
      funext k
      show entry store db' k = Function.update (entry store db) r.credKey _ k
      by_cases hk : k = r.credKey
      · subst hk
        rw [Function.update_self, entry, hrows, if_pos rfl]
        rfl
      · rw [Function.update_of_ne hk, entry, hrows, if_neg hk]
        rfl
    · obtain ⟨e, _, hserve⟩ := serve_upsert_refused store db hallowed
      rw [hserve]
      rfl
  | delete id =>
    cases hrow : db.credential id with
    | none =>
      rw [serve_delete_unknown hrow]
      rfl
    | some r =>
      rw [serve_delete hrow]
      funext k
      show entry store (db.delete id) k = (entry store db k).filter fun p => p.1 ≠ id
      rw [entry, byKey_delete, entry]
      cases db.byKey k with
      | none => rfl
      | some s =>
        by_cases hs : s.id = id <;> simp [Option.filter, hs]

variable (hdecrypt : ∀ nonce text, store.decrypt (store.encrypt nonce text) = .ok text)

include hdecrypt in
theorem answered_upsert {db : Database} {r : UpsertRequest} {e : ProviderCredentialRead}
    (h : (serve store db (.upsert r)).1 = .read e) :
    r.Allowed ∧ e.credKey = r.credKey ∧ e.maskedValue = store.mask r.body.plaintextValue ∧
      e.updatedBy = sub r.user := by
  by_cases hallowed : r.Allowed
  · obtain ⟨db', hserve, _⟩ := serve_upsert store db hallowed
    rw [hserve] at h
    cases h
    refine ⟨hallowed, credKey_written, ?_, updatedBy_written⟩
    show maskedValue store ((r.values store).written db).cipherText = _
    rw [cipherText_written]
    show maskedValue store (store.encrypt r.nonce r.body.plaintextValue) = _
    rw [maskedValue, hdecrypt]
  · obtain ⟨err, _, hserve⟩ := serve_upsert_refused store db hallowed
    rw [hserve] at h
    cases h

include hdecrypt in
theorem Kept.step {s s' : Served} {c : Call} (hs : Kept store s) (h : s.step store c = some s') :
    Kept store s' := by
  cases h
  refine ⟨?_, ?_⟩
  · show entry store (serve store s.db c).2 = Foundation.ledger effect (s.history ++ [_])
    rw [ledger_snoc, ← hs.ledger]
    exact entry_serve s.db c
  · intro r e hmem
    rcases List.mem_append.mp hmem with hmem | hmem
    · exact hs.answered r e hmem
    · have hlast := List.mem_singleton.mp hmem
      injection hlast with hcall hanswer
      subst hcall
      exact answered_upsert hdecrypt hanswer.symm

theorem kept_start : Kept store Served.start := by
  refine ⟨?_, fun r e hmem => absurd hmem List.not_mem_nil⟩
  funext k
  rfl

/-! ## The listing -/

/-- The history ends its writes of a key with this answer: no later upsert of
the key was answered, and no later delete found the row. -/
def LastUpsert (h : List (Call × Answer)) (e : ProviderCredentialRead) : Prop :=
  ∃ before r after, h = before ++ (Call.upsert r, Answer.read e) :: after ∧
    ∀ x ∈ after, (∀ r' e', x = (Call.upsert r', Answer.read e') → r'.credKey ≠ r.credKey) ∧
      x ≠ (.delete e.id, .noContent)

theorem lastUpsert_iff {h : List (Call × Answer)} {e : ProviderCredentialRead} :
    LastUpsert h e ↔ ∃ k, LastPut effect h k e.id e := by
  constructor
  · rintro ⟨before, r, after, rfl, hafter⟩
    refine ⟨r.credKey, before, _, after, rfl, rfl, fun x hx => ⟨?_, ?_⟩⟩
    · intro j w hput
      obtain ⟨r', hxr, hk, _⟩ := effect_eq_put.mp hput
      exact (hafter x hx).1 r' w hxr hk
    · intro hdrop
      exact (hafter x hx).2 (effect_eq_drop.mp hdrop)
  · rintro ⟨k, before, a, after, rfl, hput, hafter⟩
    obtain ⟨r, rfl, rfl, _⟩ := effect_eq_put.mp hput
    refine ⟨before, r, after, rfl, fun x hx => ⟨?_, ?_⟩⟩
    · rintro r' e' rfl hk
      exact (hafter _ hx).1 e'.id e' (effect_eq_put.mpr ⟨r', rfl, hk, rfl⟩)
    · intro hdelete
      exact (hafter x hx).2 (effect_eq_drop.mpr hdelete)

theorem mem_listCredentials {db : Database} {e : ProviderCredentialRead} :
    e ∈ listCredentials store db ↔ ∃ r ∈ db.credentials, toRead store r = e := by
  simp [listCredentials]

/-- A row is listed under its key. -/
theorem mem_listCredentials_iff_entry {db : Database} {e : ProviderCredentialRead} :
    e ∈ listCredentials store db ↔ ∃ k, entry store db k = some (e.id, e) := by
  rw [mem_listCredentials]
  constructor
  · rintro ⟨r, hr, rfl⟩
    refine ⟨r.credKey, ?_⟩
    rw [entry, byKey_credKey hr]
    rfl
  · rintro ⟨k, hk⟩
    obtain ⟨r, hr, heq⟩ := Option.map_eq_some_iff.mp hk
    exact ⟨r, (mem_of_byKey.mp hr).1, (Prod.mk.injEq .. ▸ heq).2⟩

theorem credKey_injective {db : Database} : ∀ a ∈ db.credentials, ∀ b ∈ db.credentials,
    a.credKey = b.credKey → a = b := fun _ ha _ hb h => Table.eq_of_key_eq ha hb h

theorem listCredentials_sorted (db : Database) :
    ((listCredentials store db).map ProviderCredentialRead.credKey).Pairwise (· < ·) := by
  unfold listCredentials
  rw [List.map_map, List.pairwise_map]
  exact Table.orderBy_pairwise_lt credKey_injective

/-- The two views agree on the rows of a provider. -/
theorem listByProvider_allowed {p : String} (hp : p ∈ allowedProviderIds) (db : Database) :
    listByProvider store p db =
      .ok ((listCredentials store db).filter fun e => e.providerId = p) := by
  have hcut : db.credentials.orderBy (fun r => r.providerId = p) ProviderCredential.fieldName =
      (db.credentials.orderBy (fun _ => true) ProviderCredential.credKey).filter
        fun r => r.providerId = p := by
    refine Table.filter_orderBy (fun a _ b _ ha hb => ?_) credKey_injective
    rw [decide_eq_true_eq] at ha hb
    show toLex (a.providerId, a.fieldName) ≤ toLex (b.providerId, b.fieldName) ↔ _
    rw [Prod.Lex.toLex_le_toLex, ha, hb]
    simp
  unfold listByProvider listCredentials
  rw [if_pos hp, hcut, List.filter_map]
  rfl

/-! ## The result -/

variable (store)

/-- The table, as its listings show it, is the map the history of the answered
requests has written last. -/
structure LastWriterMap (s : Served) : Prop where
  sorted : ((listCredentials store s.db).map ProviderCredentialRead.credKey).Pairwise (· < ·)
  entries : ∀ e, e ∈ listCredentials store s.db ↔ LastUpsert s.history e
  answered : Answered store s.history
  accepts : ∀ r : UpsertRequest, r.Allowed → ∃ e, (serve store s.db (.upsert r)).1 = .read e
  /-- An upsert of a listed key keeps the id. -/
  sameId : ∀ (r : UpsertRequest) (e e' : ProviderCredentialRead),
    e ∈ listCredentials store s.db → e.credKey = r.credKey →
    (serve store s.db (.upsert r)).1 = .read e' → e'.id = e.id
  unknownName : ∀ r : UpsertRequest, ¬ r.Allowed →
    ∃ e : HttpException, e.status = 422 ∧ serve store s.db (.upsert r) = (.error e, s.db)
  unknownId : ∀ id : Int, (∀ e ∈ listCredentials store s.db, e.id ≠ id) →
    serve store s.db (.delete id) = (.error (notFound "credential_not_found"), s.db)
  knownId : ∀ e ∈ listCredentials store s.db, (serve store s.db (.delete e.id)).1 = .noContent
  byProvider : ∀ p ∈ allowedProviderIds, listByProvider store p s.db =
    .ok ((listCredentials store s.db).filter fun e => e.providerId = p)
  /-- A provider that is not on the list is answered 422; it has no entry. -/
  unknownProvider : ∀ p ∉ allowedProviderIds,
    listByProvider store p s.db = .error (unknownProviderId p) ∧
      ∀ e ∈ listCredentials store s.db, e.providerId ≠ p

variable {store}

theorem Kept.lastWriterMap {s : Served} (hs : Kept store s) : LastWriterMap store s := by
  have hentries : ∀ e, e ∈ listCredentials store s.db ↔ LastUpsert s.history e := by
    intro e
    rw [mem_listCredentials_iff_entry, lastUpsert_iff, hs.ledger]
    simp only [ledger_eq_some]
  refine
    { sorted := listCredentials_sorted s.db
      entries := hentries
      answered := hs.answered
      accepts := ?_
      sameId := ?_
      unknownName := fun r h => serve_upsert_refused store s.db h
      unknownId := ?_
      knownId := ?_
      byProvider := fun p hp => listByProvider_allowed hp s.db
      unknownProvider := ?_ }
  · intro r hallowed
    obtain ⟨db', hserve, _⟩ := serve_upsert store s.db hallowed
    exact ⟨_, congrArg Prod.fst hserve⟩
  · intro r e e' he hk hanswer
    obtain ⟨row, hrow, rfl⟩ := mem_listCredentials.mp he
    have hold : s.db.byKey (r.values store).key = some row := mem_of_byKey.mpr ⟨hrow, hk⟩
    by_cases hallowed : r.Allowed
    · obtain ⟨db', hserve, _⟩ := serve_upsert store s.db hallowed
      rw [hserve] at hanswer
      cases hanswer
      exact id_written hold
    · obtain ⟨err, _, hserve⟩ := serve_upsert_refused store s.db hallowed
      rw [hserve] at hanswer
      cases hanswer
  · intro id hid
    refine serve_delete_unknown (credential_eq_none.mpr fun r hr => ?_)
    exact hid (toRead store r) (mem_listCredentials.mpr ⟨r, hr, rfl⟩)
  · intro e he
    obtain ⟨row, hrow, rfl⟩ := mem_listCredentials.mp he
    exact congrArg Prod.fst (serve_delete (credential_eq_some.mpr ⟨hrow, rfl⟩))
  · intro p hp
    refine ⟨if_neg hp, ?_⟩
    rintro e he rfl
    obtain ⟨before, r, after, hsplit, _⟩ := (hentries e).mp he
    have hmem : (Call.upsert r, Answer.read e) ∈ s.history := by simp [hsplit]
    obtain ⟨hallowed, hkey, _⟩ := hs.answered r e hmem
    have hprovider : e.providerId = r.body.providerId := congrArg Prod.fst hkey
    exact hp (hprovider ▸ hallowed.1)

/-- **The credential table is a last-writer map**, after every sequence of
upserts and deletes. -/
theorem credentials_lastWriterMap (store : CredentialStore)
    (hdecrypt : ∀ nonce text, store.decrypt (store.encrypt nonce text) = .ok text)
    (calls : List Call) :
    Always (Served.step store) (LastWriterMap store) Served.start calls :=
  (always_of_step (fun _ _ _ hs h => hs.step hdecrypt h) kept_start calls).mono
    fun _ hs => hs.lastWriterMap

/-- A cipher that reverses the text, and a mask that keeps the ends of a long
one. -/
def reversing : CredentialStore where
  encrypt := fun _ text => String.ofList text.toList.reverse
  decrypt := fun cipherText => .ok (String.ofList cipherText.toList.reverse)
  mask := fun text =>
    if text.length < 8 then "********"
    else
      String.ofList (text.toList.take 4 ++ "********".toList ++ text.toList.drop (text.length - 4))

/-- A key written twice, and deleted by an id that is not its own. -/
def rewritten : List Call :=
  [.upsert ⟨⟨"dashscope", "api_key", "sk-aaaa"⟩, [("sub", .text "admin")], 0, 10⟩,
    .upsert ⟨⟨"dashscope", "api_key", "sk-bbbb"⟩, [("sub", .text "admin")], 1, 20⟩,
    .delete 2]

theorem credentials_lastWriterMap_rewritten :
    Always (Served.step reversing) (LastWriterMap reversing) Served.start rewritten :=
  credentials_lastWriterMap reversing (fun _ _ => by simp [reversing]) rewritten

end IsalesApi.Credentials

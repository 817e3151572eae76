import IsalesApi.Http
import IsalesApi.Auth.Claims
import IsalesApi.Foundation.Table
import Mathlib.Data.Prod.Lex
import Mathlib.Data.String.Basic

/-!
# Provider credentials

The table of encrypted credentials and the handlers of
`/provider-credentials`. A write addresses a row by `(provider_id, field_name)`,
which the `ON CONFLICT` of the upsert needs unique; a delete addresses it by the
id a sequence of the database has given it.
-/

namespace IsalesApi.Credentials

open Foundation Auth

/-- A time as the database stamps it. -/
abbrev Timestamp := Int

/-- `CryptoError`. -/
structure CryptoError where
deriving DecidableEq

/-- `CredentialStore`, which is not part of this repository. A cipher text
depends on the nonce it is made with. -/
structure CredentialStore where
  encrypt : Nat → String → String
  decrypt : String → Except CryptoError String
  mask : String → String

structure ProviderCredential where
  id : Int
  providerId : String
  fieldName : String
  cipherText : String
  updatedBy : Option String
  updatedAt : Timestamp
deriving DecidableEq

/-- `(provider_id, field_name)`, in the order the listing has. -/
abbrev Key := Lex (String × String)

def Key.of (providerId fieldName : String) : Key := toLex (providerId, fieldName)

def ProviderCredential.credKey (r : ProviderCredential) : Key := .of r.providerId r.fieldName

/-- The unique index on `(provider_id, field_name)`. -/
instance : Keyed ProviderCredential Key := ⟨ProviderCredential.credKey⟩

/-! ## The table -/

/-- The rows and the sequence their ids are drawn from. -/
structure Database where
  credentials : Table ProviderCredential
  nextId : Int
  ids : (credentials.rows.map ProviderCredential.id).Nodup
  fresh : ∀ r ∈ credentials, r.id < nextId

def Database.empty : Database where
  credentials := .empty
  nextId := 1
  ids := List.nodup_nil
  fresh := fun r hr => absurd hr (Table.not_mem_empty r)

/-- `session.get(ProviderCredential, cred_id)`. -/
def Database.credential (id : Int) (db : Database) : Option ProviderCredential :=
  db.credentials.rows.find? fun r => r.id = id

def Database.byKey (k : Key) (db : Database) : Option ProviderCredential := db.credentials.get? k

/-- `.values(…)` of the upsert, and the time of the statement. -/
structure Values where
  providerId : String
  fieldName : String
  cipherText : String
  updatedBy : Option String
  now : Timestamp
deriving DecidableEq

def Values.key (v : Values) : Key := .of v.providerId v.fieldName

/-- The row the insert branch makes. -/
def Values.row (v : Values) (id : Int) : ProviderCredential :=
  ⟨id, v.providerId, v.fieldName, v.cipherText, v.updatedBy, v.now⟩

/-- `set_` of the conflict branch: it names two columns. -/
def Values.assign (v : Values) (r : ProviderCredential) : ProviderCredential :=
  { r with cipherText := v.cipherText, updatedBy := v.updatedBy }

theorem Values.key_assign (v : Values) (r : ProviderCredential) :
    Foundation.key (v.assign r) = Foundation.key r := rfl

/-- `INSERT … ON CONFLICT (provider_id, field_name) DO UPDATE`, and the `DELETE`
of a row by its id. -/
inductive Write where
  | upsert (v : Values)
  | delete (id : Int)
deriving DecidableEq

/-- The conflict branch. -/
def Database.update (db : Database) (v : Values) : Database where
  credentials := db.credentials.update (fun r => r.credKey = v.key) v.assign v.key_assign
  -- the sequence is drawn from before the conflict is found
  nextId := db.nextId + 1
  ids := by
    have hids : ∀ r : ProviderCredential,
        ProviderCredential.id (if decide (r.credKey = v.key) then v.assign r else r) = r.id := by
      intro r
      by_cases h : r.credKey = v.key <;> simp [h, Values.assign]
    show ((db.credentials.rows.map _).map ProviderCredential.id).Nodup
    rw [List.map_map]
    simp only [Function.comp_def, hids]
    exact db.ids
  fresh := by
    intro r hr
    obtain ⟨s, hs, rfl⟩ := Table.mem_update.mp hr
    have hlt := db.fresh s hs
    by_cases h : s.credKey = v.key
    · simp only [h, decide_true, if_true]
      show s.id < _
      omega
    · simp only [h, decide_false, Bool.false_eq_true, if_false]
      omega

/-- The insert branch. -/
def Database.insert (db : Database) (v : Values) : Option Database :=
  match h : db.credentials.insert (v.row db.nextId) with
  | none => none
  | some t => some
    { credentials := t
      nextId := db.nextId + 1
      ids := by
        rw [(Table.insert_eq_some.mp h).2, List.map_append, List.map_singleton,
          List.nodup_append]
        refine ⟨db.ids, List.nodup_singleton _, ?_⟩
        rintro a ha b hb rfl
        obtain ⟨r, hr, rfl⟩ := List.mem_map.mp ha
        have hlt := db.fresh r hr
        have hid : r.id = db.nextId := List.mem_singleton.mp hb
        omega
      fresh := by
        intro r hr
        rcases (Table.mem_insert h).mp hr with hr | rfl
        · have hlt := db.fresh r hr
          omega
        · show db.nextId < _
          omega }

def Database.delete (db : Database) (id : Int) : Database where
  credentials := db.credentials.delete fun r => r.id = id
  nextId := db.nextId
  ids := (List.filter_sublist.map _).nodup db.ids
  fresh := fun r hr => db.fresh r (Table.mem_delete.mp hr).1

def Database.apply (db : Database) : Write → Option Database
  | .upsert v =>
    match db.byKey v.key with
    | some _ => some (db.update v)
    | none => db.insert v
  | .delete id => some (db.delete id)

def Write.locked : Write → Key ⊕ Int
  | .upsert v => .inl v.key
  | .delete id => .inr id

instance : Store Database Write (Key ⊕ Int) HttpException where
  apply w db := db.apply w
  lock := Write.locked
  refused := internalServerError

/-! ## The handlers -/

/-- `ALLOWED_PROVIDER_IDS`. -/
def allowedProviderIds : List String := ["volcengine", "volcengine_speech", "dashscope", "mock"]

/-- `ALLOWED_FIELD_NAMES`. -/
def allowedFieldNames : List String :=
  ["api_key", "app_key", "app_token", "endpoint", "asr_endpoint", "tts_endpoint",
    "asr_resource_id", "tts_resource_id", "default_model", "enabled"]

/-- `{sorted(names)}` in a message. -/
def sortedNames (names : List String) : String :=
  "[" ++ ", ".intercalate ((names.insertionSort (· ≤ ·)).map fun n => "'" ++ n ++ "'") ++ "]"

def unknownProviderId (p : String) : HttpException :=
  unprocessable ("unknown_provider_id:" ++ p ++ " (allowed: " ++ sortedNames allowedProviderIds ++
    ")")

def unknownFieldName (f : String) : HttpException :=
  unprocessable ("unknown_field_name:" ++ f ++ " (allowed: " ++ sortedNames allowedFieldNames ++
    ")")

/-- `_sub`. -/
def sub (user : Claims) : Option String :=
  match user.get "sub" with
  | none => none
  | some .null => none
  | some v => some v.str

structure ProviderCredentialRead where
  id : Int
  providerId : String
  fieldName : String
  maskedValue : String
  updatedBy : Option String
  updatedAt : Timestamp
deriving DecidableEq

def ProviderCredentialRead.credKey (e : ProviderCredentialRead) : Key :=
  .of e.providerId e.fieldName

structure ProviderCredentialUpsert where
  providerId : String
  fieldName : String
  plaintextValue : String

/-- A request to `upsert_credential`: its body and its user, and what the
encryption and the statement draw from outside. -/
structure UpsertRequest where
  body : ProviderCredentialUpsert
  user : Claims
  nonce : Nat
  now : Timestamp

def UpsertRequest.credKey (r : UpsertRequest) : Key := .of r.body.providerId r.body.fieldName

/-- The names are on the allow-lists. -/
def UpsertRequest.Allowed (r : UpsertRequest) : Prop :=
  r.body.providerId ∈ allowedProviderIds ∧ r.body.fieldName ∈ allowedFieldNames

instance (r : UpsertRequest) : Decidable r.Allowed := inferInstanceAs (Decidable (_ ∧ _))

variable (store : CredentialStore)

/-- The text `_to_read` shows. -/
def maskedValue (cipherText : String) : String :=
  match store.decrypt cipherText with
  | .ok plaintext => store.mask plaintext
  | .error _ => "********"

/-- `_to_read`. -/
def toRead (r : ProviderCredential) : ProviderCredentialRead where
  id := r.id
  providerId := r.providerId
  fieldName := r.fieldName
  maskedValue := maskedValue store r.cipherText
  updatedBy := r.updatedBy
  updatedAt := r.updatedAt

/-- `list_credentials`. -/
def listCredentials (db : Database) : List ProviderCredentialRead :=
  (db.credentials.orderBy (fun _ => true) ProviderCredential.credKey).map (toRead store)

/-- `list_by_provider`. -/
def listByProvider (p : String) (db : Database) :
    Except HttpException (List ProviderCredentialRead) :=
  if p ∈ allowedProviderIds then
    .ok ((db.credentials.orderBy (fun r => r.providerId = p) ProviderCredential.fieldName).map
      (toRead store))
  else .error (unknownProviderId p)

def UpsertRequest.values (r : UpsertRequest) : Values where
  providerId := r.body.providerId
  fieldName := r.body.fieldName
  cipherText := store.encrypt r.nonce r.body.plaintextValue
  updatedBy := sub r.user
  now := r.now

/-- `upsert_credential`. The row `RETURNING` gives is the one with the key. -/
def upsertCredential (r : UpsertRequest) :
    Prog Database Write HttpException ProviderCredentialRead :=
  (Prog.raiseIf (r.body.providerId ∉ allowedProviderIds) (unknownProviderId r.body.providerId)).bind
    fun _ =>
  (Prog.raiseIf (r.body.fieldName ∉ allowedFieldNames) (unknownFieldName r.body.fieldName)).bind
    fun _ =>
  (Prog.exec (.upsert (r.values store))).bind fun _ =>
  (Prog.select (Database.byKey r.credKey)).bind fun
    | none => .raise internalServerError
    | some row => .done (toRead store row)

/-- `delete_credential`. -/
def deleteCredential (credId : Int) : Prog Database Write HttpException Unit :=
  (getOr404 (Database.credential credId) "credential_not_found").bind fun obj =>
  Prog.exec (.delete obj.id)

end IsalesApi.Credentials

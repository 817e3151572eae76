import IsalesApi.Credentials.LastWriter
import IsalesApi.Foundation.CommitLog

/-!
# Overlapping writes of credentials

Both handlers commit before they answer. Up to then an upsert sends one
statement, and a delete looks its row up and deletes it by id, so neither writes
anything it has read: however requests overlap, the table is the one they leave
when they are served in the order of their commits.
-/

namespace IsalesApi.Credentials

open Foundation

variable (store : CredentialStore)

/-- The handlers up to `session.commit()`. -/
def Call.transaction : Call → Prog Database Write HttpException Unit
  | .upsert r =>
    (Prog.raiseIf (r.body.providerId ∉ allowedProviderIds)
      (unknownProviderId r.body.providerId)).bind fun _ =>
    (Prog.raiseIf (r.body.fieldName ∉ allowedFieldNames)
      (unknownFieldName r.body.fieldName)).bind fun _ =>
    Prog.exec (.upsert (r.values store))
  | .delete credId => deleteCredential credId

variable {store} {db : Database}

/-! ## One request alone -/

theorem Database.ext {a b : Database} (hrows : a.credentials = b.credentials)
    (hid : a.nextId = b.nextId) : a = b := by
  cases a
  cases b
  cases hrows
  cases hid
  rfl

end IsalesApi.Credentials

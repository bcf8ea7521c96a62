import ConsentGate.Consent.Record

/-! Where consent is looked up.

A lookup may answer with a record, with nothing, or with a payload that is still to be read; or it may
fail. While it runs, tenants may be invalidated. A static source holds its answers; a scripted one
gives any replies in turn, and nothing after the last. -/
namespace ConsentGate.Consent
set_option autoImplicit false

inductive Answer where
  | absent
  | record (r : Record)
  | payload (v : Value)

/-- What a lookup comes to, and the tenants invalidated meanwhile. -/
structure Reply where
  invalidated : List String := []
  answer : Except Fault Answer

inductive Source where
  /-- Answers by tenant; `subscribed` says that changes are told to the validator. -/
  | static (answers : List (String × Answer)) (subscribed : Bool)
  | scripted (replies : List Reply)

namespace Source

def lookup (answers : List (String × Answer)) (tenant : String) : Answer :=
  (answers.lookup tenant).getD .absent

/-- Sets the answer for a tenant, in the place of the one it had. -/
def replace (tenant : String) (answer : Answer) :
    List (String × Answer) → List (String × Answer)
  | [] => [(tenant, answer)]
  | (t, a) :: rest =>
    if t == tenant then (t, answer) :: rest else (t, a) :: replace tenant answer rest

/-- A static source; of several answers for one tenant the last counts. -/
def ofAnswers (answers : List (String × Answer)) (subscribed : Bool) : Source :=
  .static (answers.foldl (fun kept (tenant, answer) => replace tenant answer kept) []) subscribed

/-- The reply to a lookup, and the source after it. -/
def ask (s : Source) (tenant : String) : Reply × Source :=
  match s with
  | .static answers _ => (⟨[], .ok (lookup answers tenant)⟩, s)
  | .scripted [] => (⟨[], .ok .absent⟩, s)
  | .scripted (reply :: rest) => (reply, .scripted rest)

def set (s : Source) (tenant : String) (answer : Answer) : Source :=
  match s with
  | .static answers subscribed => .static (replace tenant answer answers) subscribed
  | .scripted _ => s

def remove (s : Source) (tenant : String) : Source :=
  match s with
  | .static answers subscribed => .static (answers.filter fun a => a.1 != tenant) subscribed
  | .scripted _ => s

/-- Whether changes are told to the validator. -/
def tells : Source → Bool
  | .static _ subscribed => subscribed
  | .scripted _ => false

end Source

end ConsentGate.Consent

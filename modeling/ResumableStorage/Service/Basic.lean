/-
  ResumableStorage/Service/Basic.lean
  ===================================
  **Requests to an object service** — the requests that the client can send, what may
  come back, and what it means for a type to be a service.

  A service is any state with two functions: one answers a single request, the other a
  listing, which arrives in pages of which each may still fail.  Nothing else is
  assumed: the model of a store in `Store` is one service, the same store behind a
  queue of disturbances another, and a statement about all services holds whatever
  the answers are.
-/
import ResumableStorage.Value.Decode

namespace ResumableStorage

/-! ## 1. Failures -/

/-- An error answer: the operation that was refused and the answer's body. -/
structure Refusal where
  operation : String
  body : Value
deriving Inhabited

namespace Refusal

def look (v : Value) (name : String) : Value :=
  match v.field? name with
  | .ok (some w) => w
  | _ => .null

/-- The body of an error answer with a code, which is also its message, and a status. -/
def standard (operation code : String) (status : Int) : Refusal :=
  ⟨operation, .object [
    ("Error", .object [("Code", .text code), ("Message", .text code)]),
    ("ResponseMetadata", .object [("HTTPStatusCode", .int status)])]⟩

/-- A part of an error answer has to be an object when it is there. -/
def checkPart (body : Value) (name : String) : Except Malformed Unit := do
  match ← body.field? name with
  | none => return ()
  | some part => discard (part.field? name)

/-- The refusal that an error answer makes; its body has to be an object. -/
def ofAnswer (operation : String) (body : Value) : Except Malformed Refusal := do
  checkPart body "ResponseMetadata"
  checkPart body "Error"
  return ⟨operation, body⟩

def code (r : Refusal) : Value := look (look r.body "Error") "Code"

def status (r : Refusal) : Value := look (look r.body "ResponseMetadata") "HTTPStatusCode"

def named (r : Refusal) (name : String) : String :=
  match (look r.body "Error").field? name with
  | .ok (some w) => w.display
  | _ => "Unknown"

def retryRemark (r : Refusal) : String :=
  let metadata := look r.body "ResponseMetadata"
  match (look metadata "MaxAttemptsReached").isGiven, metadata.field? "RetryAttempts" with
  | true, .ok (some n) => " (reached max retries: " ++ n.display ++ ")"
  | _, _ => ""

def text (r : Refusal) : String :=
  "An error occurred (" ++ r.named "Code" ++ ") when calling the " ++ r.operation ++
    " operation" ++ r.retryRemark ++ ": " ++ r.named "Message"

end Refusal

/-- What a request comes to when it gets no answer of its own. -/
inductive Failure where
  | refused (r : Refusal)
  | unreachable (text : String)
  | unexpected (text : String)
  /-- The service answered with an error that could not be decoded. -/
  | unreadable (e : Malformed)
deriving Inhabited

namespace Failure

/-- The failure that an error answer makes. -/
def ofAnswer (operation : String) (body : Value) : Failure :=
  match Refusal.ofAnswer operation body with
  | .ok r => .refused r
  | .error e => .unreadable e

def kind : Failure → FailureKind
  | refused _ => .refused
  | unreachable _ => .unreachable
  | unexpected _ => .unexpected
  | unreadable (.noMember ..) => .memberless
  | unreadable _ => .wrongKind

def text : Failure → String
  | refused r => r.text
  | unreachable t => t
  | unexpected t => t
  | unreadable e => e.message

def toReadFailure (f : Failure) : ReadFailure := ⟨f.kind, f.text⟩

end Failure

/-! ## 2. Requests -/

inductive Request where
  | createUpload (bucket key : String) (contentType : Option String)
  | uploadPart (bucket key uploadId : String) (number : Int) (body : Bytes)
  | copyPart (bucket key uploadId : String) (number : Int) (source : String)
      (range : Option String)
  | listParts (bucket key uploadId : String) (maxParts marker : Int)
  | listUploads (bucket : String) (keyFront : Option String) (keyMarker idMarker : Option Value)
  /-- Parts are named by number and tag, in the order in which they are joined. -/
  | completeUpload (bucket key uploadId : String) (parts : List (Int × String))
  | abortUpload (bucket key uploadId : String)
  | getObject (bucket key : String) (range : Option String)
  | putObject (bucket key : String) (body : Bytes) (contentType : Option String)
  | headObject (bucket key : String)
  | deleteObject (bucket key : String)
  | deleteObjects (bucket : String) (keys : List String)
  | copyObject (bucket source dest : String)
  | presign (operation bucket key : String) (expiresIn : Int)
  /-- Asks for the object that walks a listing. -/
  | openListing

structure Listing where
  bucket : String
  keyFront : String
  delimiter : Option String
  maxItems : Option Int

/-- What was done to the service: a request, a listing, or the release of a body. -/
inductive Event where
  | sent (r : Request)
  | listed (l : Listing)
  | released

/-- A page of a listing, or the failure met in its place. -/
abbrev Page := Except Failure Value

/-! ## 3. Services -/

/-- A service with states in `σ`.  `horizon` bounds the number of pages that a walk over a paged
listing asks for from a state on; a service that never ends a listing is given up there. -/
class Service (σ : Type) where
  answer : Request → σ → Except Failure Value × σ
  pages : Listing → σ → Except Failure (List Page) × σ
  horizon : σ → Nat

end ResumableStorage

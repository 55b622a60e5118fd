/-
  ResumableStorage/Settings/Connection.lean
  =========================================
  **Connections** — how the service is reached: its address and region, the
  credentials, and the way in which the bucket enters the address.
-/
import ResumableStorage.Error
import ResumableStorage.Text.Case

namespace ResumableStorage

structure Connection where
  endpointUrl : Option String
  region : String
  accessKeyId : Option String
  secretAccessKey : Option String
  useSsl : Bool
  addressingStyle : String
deriving DecidableEq

namespace Connection

/-- The ways in which a bucket can enter an address. -/
def addressingStyles : List String := ["virtual", "auto", "path"]

/-- The style of a settings text, without regard to case and surrounding blanks; an empty text is
the default. -/
def styleOf (text : String) : String :=
  Text.lower (String.ofList (Text.trim Text.isBlank (if text = "" then "path" else text).toList))

def ofSettings (s : Settings) : Except Error Connection :=
  let style := styleOf s.addressingStyle
  if addressingStyles.contains style then
    .ok ⟨s.endpointUrl, s.region, s.accessKeyId, s.secretAccessKey, s.useSsl, style⟩
  else .error (.addressingStyle style)

end Connection

end ResumableStorage

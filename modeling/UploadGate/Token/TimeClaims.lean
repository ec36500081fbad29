/-
  UploadGate/Token/TimeClaims.lean
  ================================
  **The two times between which a token is valid.**

  Both are optional and are numbers, of either kind and compared exactly.  A
  time that equals a bound is within it; a NaN bounds nothing.
-/
import UploadGate.Token.Segments

namespace UploadGate.Token

structure TimeClaims where
  expires? : Option Number
  notBefore? : Option Number
deriving DecidableEq, Repr

namespace TimeClaims

def isTime (member? : Option Json) : Bool :=
  match member? with
  | none => true
  | some .null => true
  | some (.number _) => true
  | some _ => false

/-- The faults of a member that is to be a time: it is neither kind of number. -/
def faults (member? : Option Json) : Nat := if isTime member? then 0 else 2

/-- The member that holds the time after which the token has expired. -/
def expiresMember? (payload : Claims) : Option Json := payload.get? (Text.of "exp")

/-- The member that holds the time before which the token is not valid. -/
def notBeforeMember? (payload : Claims) : Option Json := payload.get? (Text.of "nbf")

/-- The number of faults of a payload.  A member name with a surrogate is the only
    one that counts when there is one. -/
def faultCount (payload : Claims) : Nat :=
  if payload.keys.any fun name => name.any CodePoint.isSurrogate then 1
  else faults (expiresMember? payload) + faults (notBeforeMember? payload)

def read (payload : Claims) : Except UploadError TimeClaims :=
  if faultCount payload ≠ 0 then .error (.token (.registeredClaims (faultCount payload)))
  else .ok ⟨(expiresMember? payload).bind Json.number?, (notBeforeMember? payload).bind Json.number?⟩

def check (t : TimeClaims) (now : Number) : Except UploadError Unit :=
  if t.expires?.any fun bound => bound.lt now then .error .tokenExpired
  else if t.notBefore?.any fun bound => now.lt bound then .error .tokenPremature
  else .ok ()

end TimeClaims

end UploadGate.Token

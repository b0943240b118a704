import Polymorph.Host

/-!
# Checked texts

Checks that several parts of the package make on identifiers and timestamps.
-/

set_option autoImplicit false

namespace Polymorph

open Utc

/-- A non-empty text of at most `maximum` characters, none of them a control character. -/
def isBoundedText (maximum : Nat) (text : String) : Bool :=
  !text.isEmpty && text.length ≤ maximum &&
    text.toList.all fun c => 32 ≤ c.toNat && c.toNat ≠ 127

/-- `text.replace(old, new)` of a non-empty `old`; `skip` characters belong to the last match. -/
def replaceChars (old new : List Char) : Nat → List Char → List Char
  | _, [] => []
  | skip + 1, _ :: cs => replaceChars old new skip cs
  | 0, c :: cs =>
      if old.isPrefixOf (c :: cs) then new ++ replaceChars old new (old.length - 1) cs
      else c :: replaceChars old new 0 cs

/-- `text.replace(old, new)` -/
def replaceText (text old new : String) : String :=
  String.ofList (replaceChars old.toList new.toList 0 text.toList)

/-- `datetime.now(UTC).isoformat().replace("+00:00", "Z")` -/
def nowText (now : Instant) : String := replaceText now.isoformat "+00:00" "Z"

/-- `datetime.fromisoformat(text.replace("Z", "+00:00"))` -/
def readTimestamp (H : Host) (text : String) : Option Reading :=
  H.fromisoformat (replaceText text "Z" "+00:00")

end Polymorph

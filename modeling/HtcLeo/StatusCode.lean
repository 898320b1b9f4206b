import Mathlib.Tactic.Common

/-!
# UEFI status codes as words

A protocol that is implemented elsewhere may return any `EFI_STATUS`. What is
done with one is to ask whether it is an error, which its highest bit tells,
and to hand it on.
-/

/-- `EFI_STATUS`. -/
abbrev StatusCode := UInt32

namespace StatusCode

def efiSuccess : StatusCode := 0
def efiWarnUnknownGlyph : StatusCode := 1
def efiInvalidParameter : StatusCode := 0x80000002
def efiUnsupported : StatusCode := 0x80000003
def efiNotReady : StatusCode := 0x80000006
def efiDeviceError : StatusCode := 0x80000007
def efiOutOfResources : StatusCode := 0x80000009
def efiNotFound : StatusCode := 0x8000000E

/-- `EFI_ERROR`. -/
def efiError (status : StatusCode) : Bool := 0x80000000 ≤ status

end StatusCode

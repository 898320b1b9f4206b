import Mathlib.Tactic.Common

/-!
# UEFI types shared by the drivers

The status codes the modelled entry points return, and the key record the
keypad drivers pass around.
-/

/-- The `EFI_STATUS` codes returned by the modelled entry points. -/
inductive EfiStatus where
  | efiSuccess
  | efiUnsupported
  | efiInvalidParameter
  | efiAlreadyStarted
  | efiBadBufferSize
  | efiBufferTooSmall
  | efiDeviceError
  | efiNotReady
  | efiOutOfResources
  deriving DecidableEq, Repr

/-- `EFI_KEY_DATA`: the key itself (`Key.ScanCode`, `Key.UnicodeChar`) and the
shift and toggle state that came with it (`KeyState`). -/
structure EfiKeyData where
  scanCode : UInt16
  unicodeChar : UInt16
  keyShiftState : UInt32
  keyToggleState : UInt8
  deriving DecidableEq, Repr

/-- A key record with every field zero, as `SetMem (…, 0)` leaves it. -/
def EfiKeyData.zero : EfiKeyData := ⟨0, 0, 0, 0⟩

import GyroDsu.Lib.Numerals
import Mathlib.Data.List.Basic

/-
The search for the hiddev file of the controller by its USB ids, the path HidDevReader
makes of the number found, and how main joins the two. The calls of sd-device are
parameters; strings are lists of characters.
-/
namespace HiddevFinder
open Numerals

def cHiddevPath : Text := "/dev/usb/".toList
def cHiddevPrefix : Text := "hiddev".toList
def cSubsystem : Text := "usb".toList
def cDevType : Text := "usb_device".toList
def cProductPropertyName : Text := "PRODUCT".toList

inductive Thrown where
  | filesystemError
  | outOfRange
  | invalidArgument
  deriving DecidableEq, Repr

structure SdDevice (Device : Type) where
  newFromDevname : Text → Option Device
  getParentWithSubsystemDevtype : Device → Text → Text → Option Device
  getPropertyValue : Device → Text → Option Text

def getHexStringId (id : UInt16) : Text := padded 16 4 id.toNat

def substr (text : Text) (pos count : Nat) : Except Thrown Text :=
  if text.length < pos then .error .outOfRange else .ok ((text.drop pos).take count)

/-- The number in a file's name; any prefix of six characters will do. -/
def fileNumber (fName : Text) : Option Int :=
  if cHiddevPrefix.length < fName.length then
    (readInt (fName.drop cHiddevPrefix.length)).bind fun (i, rest) =>
      if rest.all isSpace then some i else none
  else none

section
variable {Device : Type} (sd : SdDevice Device)

def productOf (fileName : Text) : Option Text :=
  (sd.newFromDevname (cHiddevPath ++ fileName)).bind fun hidDevice =>
    (sd.getParentWithSubsystemDevtype hidDevice cSubsystem cDevType).bind fun usbDevice =>
      sd.getPropertyValue usbDevice cProductPropertyName

def tryFile (vidStr pidStr fileName : Text) : Except Thrown (Option Int) :=
  match productOf sd fileName with
  | none => .ok none
  | some product => do
    -- the second substr is made only if the first one gave vidStr
    if vidStr ≠ (← substr product 0 4) then return none
    if pidStr ≠ (← substr product 5 4) then return none
    return fileNumber fileName

def searchFiles (vidStr pidStr : Text) : List Text → Except Thrown Int
  | [] => .ok (-1)
  | fileName :: files => do
    match ← tryFile sd vidStr pidStr fileName with
    | some i => return i
    | none => searchFiles vidStr pidStr files

/-- No files: `directory_iterator` could not open the directory. -/
def findHidDevNo (vid pid : UInt16) (files : Option (List Text)) : Except Thrown Int :=
  match files with
  | none => .error .filesystemError
  | some files => searchFiles sd (getHexStringId vid) (getHexStringId pid) files

def inputFilePath (hidNo : Int) : Except Thrown Text :=
  if hidNo < 0 then .error .invalidArgument
  else .ok ("/dev/usb/hiddev".toList ++ writeInt hidNo)

def openedFile (vid pid : UInt16) (files : Option (List Text)) : Except Thrown (Option Text) := do
  let hidno ← findHidDevNo sd vid pid files
  if hidno < 0 then return none
  return some (← inputFilePath hidno)

end

structure Ids where
  idVendor : UInt16
  idProduct : UInt16
  bcdDevice : UInt16

/-- The PRODUCT the kernel gives a USB device: three hexadecimal numbers without leading zeros. -/
def Ids.product (ids : Ids) : Text :=
  Nat.toDigits 16 ids.idVendor.toNat ++ '/' ::
    (Nat.toDigits 16 ids.idProduct.toNat ++ '/' :: Nat.toDigits 16 ids.bcdDevice.toNat)

def hiddevName (minor : Nat) : Text := cHiddevPrefix ++ Nat.toDigits 10 minor

def wanted (usbOf : Text → Option Ids) (vid pid : UInt16) (fileName : Text) : Bool :=
  (usbOf fileName).any fun ids => ids.idVendor = vid ∧ ids.idProduct = pid

theorem slash_no_digit : ∀ d < 16, '/' ≠ Nat.digitChar d := by decide

theorem product_long (ids : Ids) : 5 ≤ ids.product.length := by
  have vendor := Nat.length_toDigits_pos (b := 16) (n := ids.idVendor.toNat)
  have product := Nat.length_toDigits_pos (b := 16) (n := ids.idProduct.toNat)
  have release := Nat.length_toDigits_pos (b := 16) (n := ids.bcdDevice.toNat)
  simp only [Ids.product, List.length_append, List.length_cons]
  omega

theorem first_is_vendor (ids : Ids) (vid : UInt16) :
    getHexStringId vid = ids.product.take 4 ↔ ids.idVendor = vid ∧ 0x1000 ≤ vid := by
  have cut := @cut_is_padded 16 3 ids.idVendor.toNat vid.toNat (by decide) (by decide)
    ids.idVendor.toNat_lt '/' slash_no_digit
    (Nat.toDigits 16 ids.idProduct.toNat ++ '/' :: Nat.toDigits 16 ids.bcdDevice.toNat)
  rw [eq_comm, getHexStringId, Ids.product, cut, UInt16.toNat_inj, UInt16.le_iff_toNat_le]
  simp

theorem second_is_product {ids : Ids} (full : 0x1000 ≤ ids.idVendor) (pid : UInt16) :
    getHexStringId pid = (ids.product.drop 5).take 4 ↔ ids.idProduct = pid ∧ 0x1000 ≤ pid := by
  have four : (Nat.toDigits 16 ids.idVendor.toNat).length = 4 := by
    have most := @digits_fit 16 4 _ (by decide) (by decide) ids.idVendor.toNat_lt
    have least := (@digits_fill 16 3 _ (by decide)).mpr (Or.inl (UInt16.le_iff_toNat_le.mp full))
    omega
  have behind : ids.product.drop 5 =
      Nat.toDigits 16 ids.idProduct.toNat ++ '/' :: Nat.toDigits 16 ids.bcdDevice.toNat := by
    rw [Ids.product, List.drop_append, four, List.drop_eq_nil_of_le (by omega)]
    rfl
  have cut := @cut_is_padded 16 3 ids.idProduct.toNat pid.toNat (by decide) (by decide)
    ids.idProduct.toNat_lt '/' slash_no_digit (Nat.toDigits 16 ids.bcdDevice.toNat)
  rw [eq_comm, getHexStringId, behind, cut, UInt16.toNat_inj, UInt16.le_iff_toNat_le]
  simp

theorem number_of_name {minor : Nat} (small : minor < 2 ^ 31) :
    fileNumber (hiddevName minor) = some (minor : Int) := by
  have some_digit := Nat.length_toDigits_pos (b := 10) (n := minor)
  have behind : (hiddevName minor).drop cHiddevPrefix.length = writeInt minor ++ [] := by
    simp [hiddevName, writeInt]
  have read := read_write (minor : Int) (by omega) (by omega) [] (by simp)
  rw [fileNumber, if_pos (by simp [hiddevName]; omega), behind, read]
  rfl

theorem path_of_number (minor : Nat) :
    inputFilePath minor = .ok (cHiddevPath ++ hiddevName minor) := by
  have start : ¬ (minor : Int) < 0 := by omega
  rw [inputFilePath, if_neg start, writeInt, if_neg start, hiddevName, ← List.append_assoc]
  rfl

section
variable {Device : Type} {sd : SdDevice Device} {usbOf : Text → Option Ids}

/- Nothing is thrown: a PRODUCT of the kernel has at least five characters. -/
theorem try_file (described : ∀ f, productOf sd f = (usbOf f).map Ids.product) (vid pid : UInt16)
    (f : Text) :
    tryFile sd (getHexStringId vid) (getHexStringId pid) f =
      .ok (if wanted usbOf vid pid f ∧ 0x1000 ≤ vid ∧ 0x1000 ≤ pid then fileNumber f else none) := by
  cases known : usbOf f with
  | none => simp [tryFile, described, known, wanted]
  | some ids =>
    have first : substr ids.product 0 4 = .ok (ids.product.take 4) := by simp [substr]
    have second : substr ids.product 5 4 = .ok ((ids.product.drop 5).take 4) := by
      rw [substr, if_neg (Nat.not_lt.mpr (product_long ids))]
    have vendor := first_is_vendor ids vid
    simp only [tryFile, described, known, Option.map_some, first, second, wanted, Option.any_some,
      decide_eq_true_eq]
    by_cases same : getHexStringId vid = ids.product.take 4
    · obtain ⟨rfl, full⟩ := vendor.mp same
      have product := second_is_product full pid
      by_cases both : getHexStringId pid = (ids.product.drop 5).take 4
      · obtain ⟨rfl, full'⟩ := product.mp both
        simp [← same, ← both, full, full', bind, Except.bind, pure, Except.pure]
      · have other : ¬ (ids.idProduct = pid ∧ 0x1000 ≤ pid) := fun h => both (product.mpr h)
        simp [← same, both, bind, Except.bind, pure, Except.pure]
        tauto
    · have other : ¬ (ids.idVendor = vid ∧ 0x1000 ≤ vid) := fun h => same (vendor.mpr h)
      simp [same, bind, Except.bind, pure, Except.pure]
      tauto

theorem search_files (described : ∀ f, productOf sd f = (usbOf f).map Ids.product) (vid pid : UInt16)
    (files : List Text) :
    searchFiles sd (getHexStringId vid) (getHexStringId pid) files =
      .ok ((files.findSome? fun f =>
        if wanted usbOf vid pid f ∧ 0x1000 ≤ vid ∧ 0x1000 ≤ pid then fileNumber f else none).getD (-1)) := by
  induction files with
  | nil => rfl
  | cons f files before =>
    rw [searchFiles, try_file described, List.findSome?_cons]
    cases found : (if wanted usbOf vid pid f ∧ 0x1000 ≤ vid ∧ 0x1000 ≤ pid then fileNumber f else none) with
    | none => exact before
    | some i => rfl

/- Among files with names of the kernel's the number found is that of the first wanted file. -/
theorem number_of_first {vid pid : UInt16} {files : List Text}
    (named : ∀ f ∈ files, wanted usbOf vid pid f → ∃ minor < 2 ^ 31, f = hiddevName minor) :
    files.findSome? (fun f => if wanted usbOf vid pid f then fileNumber f else none) =
      (files.find? (wanted usbOf vid pid)).bind fileNumber := by
  induction files with
  | nil => rfl
  | cons f files before =>
    have rest := before fun f member => named f (List.mem_cons_of_mem _ member)
    by_cases here : wanted usbOf vid pid f
    · obtain ⟨minor, small, rfl⟩ := named f List.mem_cons_self here
      simp [here, number_of_name small]
    · simpa [here] using rest

def openedNumber (number : Int) : Option Text :=
  if number < 0 then none else some ("/dev/usb/hiddev".toList ++ writeInt number)

theorem number_opened (described : ∀ f, productOf sd f = (usbOf f).map Ids.product) (vid pid : UInt16)
    (files : List Text) :
    openedFile sd vid pid (some files) = .ok (
      if 0x1000 ≤ vid ∧ 0x1000 ≤ pid then
        (files.findSome? fun f => if wanted usbOf vid pid f then fileNumber f else none).bind openedNumber
      else none) := by
  rw [openedFile, findHidDevNo, search_files described]
  by_cases full : 0x1000 ≤ vid ∧ 0x1000 ≤ pid
  · simp only [full, and_true, if_true]
    cases files.findSome? (fun f => if wanted usbOf vid pid f then fileNumber f else none) with
    | none => rfl
    | some number =>
      rw [Option.bind_some, openedNumber, Option.getD_some]
      by_cases negative : number < 0
      · simp only [bind, Except.bind, negative, if_true, pure, Except.pure]
      · have path : inputFilePath number = .ok ("/dev/usb/hiddev".toList ++ writeInt number) := if_neg negative
        simp only [bind, Except.bind, negative, if_false, path, pure, Except.pure]
  · have none_found : files.findSome? (fun _ => (none : Option Int)) = none := by
      simp [List.findSome?_eq_none_iff]
    simp only [full, and_false, if_false, none_found]
    rfl

/-- Whatever the files are called, the number in the name of the first wanted file that has one
    decides; and if the wanted ones have names of the kernel's, it is the first of them that
    is opened. -/
theorem first_device_opened (described : ∀ f, productOf sd f = (usbOf f).map Ids.product)
    (vid pid : UInt16) (files : List Text) :
    openedFile sd vid pid (some files) = .ok (
      if 0x1000 ≤ vid ∧ 0x1000 ≤ pid then
        (files.findSome? fun f => if wanted usbOf vid pid f then fileNumber f else none).bind openedNumber
      else none) ∧
    ((∀ f ∈ files, wanted usbOf vid pid f → ∃ minor < 2 ^ 31, f = hiddevName minor) →
      openedFile sd vid pid (some files) = .ok (
        if 0x1000 ≤ vid ∧ 0x1000 ≤ pid then
          (files.find? (wanted usbOf vid pid)).map fun f => cHiddevPath ++ f
        else none)) := by
  refine ⟨number_opened described vid pid files, fun named => ?_⟩
  rw [number_opened described, number_of_first named]
  cases found : files.find? (wanted usbOf vid pid) with
  | none => rfl
  | some f =>
    have here := List.find?_some found
    obtain ⟨minor, small, rfl⟩ := named f (List.mem_of_find?_eq_some found) here
    have start : ¬ (minor : Int) < 0 := by omega
    have path := path_of_number minor
    rw [inputFilePath, if_neg start] at path
    rw [Option.bind_some, number_of_name small, Option.bind_some, openedNumber, if_neg start, Except.ok.inj path,
      Option.map_some]

end

def twoFiles (f : Text) : Option Ids :=
  if f = hiddevName 1 then some ⟨0x28de, 0x1205, 0x0300⟩ else some ⟨0x1d6b, 0x2, 0x0615⟩

def twoDevices : SdDevice Text where
  newFromDevname path := some (path.drop cHiddevPath.length)
  getParentWithSubsystemDevtype device _ _ := some device
  getPropertyValue device _ := (twoFiles device).map Ids.product

theorem first_device_opened_of_two :
    openedFile twoDevices 0x28de 0x1205 (some [hiddevName 0, hiddevName 1]) =
      .ok (some (cHiddevPath ++ hiddevName 1)) := by
  have opened := (@first_device_opened _ twoDevices twoFiles
    (fun f => by simp [productOf, twoDevices]) 0x28de 0x1205 [hiddevName 0, hiddevName 1]).2
    (fun f member _ => by
      simp only [List.mem_cons, List.not_mem_nil, or_false] at member
      rcases member with rfl | rfl
      · exact ⟨0, by decide, rfl⟩
      · exact ⟨1, by decide, rfl⟩)
  exact opened.trans (by decide)

end HiddevFinder

import PageScript.Proofs.Image.RoundTrip

/-!
# Faults of an image

An image may refer to texts, types and code that it does not have. What is out of range is listed
here entry by entry, types before classes. Reading back the encoding of an image gives the image and
its build id if the list is empty, and otherwise the first fault of the list. Which faults there are
is a matter of the tables alone, whatever the code says.
-/

namespace PageScript.ModuleImage

open Image

/-- Every index and every code range in the tables of an image leads to something. -/
structure InRange (image : ModuleImage) : Prop where
  typeModules : ∀ entry ∈ image.types, entry.module.toNat < image.strings.length
  typeNames : ∀ entry ∈ image.types, entry.name.toNat < image.strings.length
  classNames : ∀ entry ∈ image.classes, entry.name.toNat < image.strings.length
  bases : ∀ entry ∈ image.classes, entry.base.toNat < image.types.length
  code : ∀ entry ∈ image.classes,
    entry.codeOffset.toNat + entry.codeLength.toNat ≤ image.code.length

/-! ## The list of faults -/

def stringFaults (image : ModuleImage) (index : UInt32) : List ReadError :=
  if index.toNat < image.strings.length then [] else [.invalidIndex "string pool" index.toNat]

def typeFaults (image : ModuleImage) (entry : TypeEntry) : List ReadError :=
  image.stringFaults entry.module ++ image.stringFaults entry.name

def baseFaults (image : ModuleImage) (index : UInt32) : List ReadError :=
  if index.toNat < image.types.length then [] else [.invalidIndex "type reference" index.toNat]

def codeFaults (image : ModuleImage) (entry : ClassEntry) : List ReadError :=
  if entry.codeOffset.toNat + entry.codeLength.toNat ≤ image.code.length then []
  else [.invalidSectionSize .code]

def classFaults (image : ModuleImage) (entry : ClassEntry) : List ReadError :=
  image.stringFaults entry.name ++ image.baseFaults entry.base ++ image.codeFaults entry

/-- All that is out of range, in the order in which the tables are checked. -/
def faults (image : ModuleImage) : List ReadError :=
  image.types.flatMap image.typeFaults ++ image.classes.flatMap image.classFaults

/-- An image has no faults exactly if all its indices and ranges are within bounds. -/
theorem faults_eq_nil_iff (image : ModuleImage) : image.faults = [] ↔ image.InRange := by
  simp only [faults, typeFaults, classFaults, stringFaults, baseFaults, codeFaults,
    List.append_eq_nil_iff, List.flatMap_eq_nil_iff, ite_eq_left_iff, List.cons_ne_nil, imp_false,
    not_not]
  constructor
  · rintro ⟨htypes, hclasses⟩
    exact ⟨fun entry hentry ↦ (htypes entry hentry).1, fun entry hentry ↦ (htypes entry hentry).2,
      fun entry hentry ↦ (hclasses entry hentry).1.1,
      fun entry hentry ↦ (hclasses entry hentry).1.2, fun entry hentry ↦ (hclasses entry hentry).2⟩
  · intro h
    exact ⟨fun entry hentry ↦ ⟨h.typeModules entry hentry, h.typeNames entry hentry⟩,
      fun entry hentry ↦ ⟨⟨h.classNames entry hentry, h.bases entry hentry⟩, h.code entry hentry⟩⟩

/-! ## Checking stops at the first fault -/

/-- Fails with the first of some faults. -/
def report : List ReadError → Except ReadError Unit
  | [] => .ok ()
  | fault :: _ => .error fault

/-- Faults of a first part come before those of a second. -/
theorem report_append (first second : List ReadError) :
    report (first ++ second) = report first >>= fun _ ↦ report second := by
  cases first with
  | nil => rfl
  | cons fault rest => rfl

/-- Checking items one by one reports the first fault of the first item that has any. -/
theorem forM_eq_report {α : Type} {check : α → Except ReadError Unit}
    {found : α → List ReadError} {items : List α}
    (h : ∀ item ∈ items, check item = report (found item)) :
    items.forM check = report (items.flatMap found) := by
  induction items with
  | nil => rfl
  | cons item rest ih =>
    rw [Outcome.forM_cons, List.flatMap_cons, report_append, h item List.mem_cons_self,
      ih fun other hother ↦ h other (List.mem_cons_of_mem _ hother)]

theorem discard_string (image : ModuleImage) (index : UInt32) :
    (discard (image.string index) : Except ReadError PUnit) =
      report (image.stringFaults index) := by
  unfold string stringFaults
  by_cases hindex : index.toNat < image.strings.length
  · rw [List.getElem?_eq_getElem hindex, if_pos hindex]
    rfl
  · rw [List.getElem?_eq_none (Nat.not_lt.mp hindex), if_neg hindex]
    rfl

/-- The module of a type is checked before its name. -/
theorem checkType_eq_report (image : ModuleImage) (entry : TypeEntry) :
    image.checkType entry = report (image.typeFaults entry) := by
  rw [checkType, discard_string, discard_string, typeFaults, report_append]

theorem discard_pair {α β : Type} (first : Except ReadError α) (second : Except ReadError β) :
    (discard (do return (← first, ← second) : Except ReadError (α × β)) :
      Except ReadError PUnit) = (do discard first; discard second) := by
  cases first with
  | error fault => rfl
  | ok value =>
    cases second with
    | error fault => rfl
    | ok value' => rfl

/-- Once no type has a fault, looking up a base type can only fail at its index. -/
theorem discard_typeAt {image : ModuleImage} (h : image.types.flatMap image.typeFaults = [])
    (index : UInt32) :
    (discard (image.typeAt index) : Except ReadError PUnit) = report (image.baseFaults index) := by
  unfold typeAt baseFaults
  by_cases hindex : index.toNat < image.types.length
  · have hentry := List.flatMap_eq_nil_iff.mp h _ (List.getElem_mem hindex)
    rw [List.getElem?_eq_getElem hindex, if_pos hindex]
    calc
      (discard (do
          return (← image.string image.types[index.toNat].module,
            ← image.string image.types[index.toNat].name) : Except ReadError (String × String)) :
          Except ReadError PUnit) = image.checkType image.types[index.toNat] := discard_pair _ _
      _ = report (image.typeFaults image.types[index.toNat]) := checkType_eq_report image _
      _ = report [] := by rw [hentry]
  · rw [List.getElem?_eq_none (Nat.not_lt.mp hindex), if_neg hindex]
    rfl

/-- The code of a class is at fault if its range is not within the code section. -/
theorem discard_classCode {image : ModuleImage} {index : Nat} {entry : ClassEntry}
    (hentry : image.classes[index]? = some entry) :
    (discard (image.classCode index) : Except ReadError PUnit) =
      report (image.codeFaults entry) := by
  simp only [classCode, classAt, hentry, Outcome.ok_bind, codeFaults]
  split <;> rfl

/-- Name, base and code of a class are checked in this order, with types that have been checked
before. -/
theorem checkClass_eq_report {image : ModuleImage} (h : image.types.flatMap image.typeFaults = [])
    {index : Nat} {entry : ClassEntry} (hentry : image.classes[index]? = some entry) :
    image.checkClass index entry = report (image.classFaults entry) := by
  have hname : image.className index = image.string entry.name := by
    rw [className, classAt, hentry, Outcome.ok_bind]
  rw [checkClass, hname, discard_string, discard_typeAt h, discard_classCode hentry, classFaults,
    report_append, report_append]
  cases report (image.stringFaults entry.name) with
  | error fault => rfl
  | ok _ => rfl

/-- An image passes its own check unless something is out of range; then the check reports the first
of the faults. -/
theorem validate_eq_report (image : ModuleImage) : image.validate = report image.faults := by
  rw [validate, forM_eq_report fun entry _ ↦ image.checkType_eq_report entry, faults, report_append]
  cases htypes : image.types.flatMap image.typeFaults with
  | cons fault rest => rfl
  | nil =>
    rw [report, Outcome.ok_bind, Outcome.ok_bind]
    have hclasses : ∀ item ∈ image.classes.zipIdx,
        image.checkClass item.2 item.1 = report (image.classFaults item.1) := by
      intro item hitem
      apply checkClass_eq_report htypes
      exact List.mem_zipIdx_iff_getElem?.mp hitem
    rw [forM_eq_report hclasses]
    have hfst : image.classes.zipIdx.flatMap (fun item ↦ image.classFaults item.1) =
        image.classes.flatMap image.classFaults := by
      rw [← List.flatMap_map, List.zipIdx_map_fst]
    rw [hfst]

/-! ## Reading back -/

/-- An image is read back together with the build id of its encoding if it is in range. If it is
not, reading fails with its first fault, which is what checking the image itself reports. -/
theorem decode_encode_cases (image : ModuleImage) (hsize : image.encode.1.length < UInt32.size) :
    (image.InRange → decode image.encode.1 = .ok (image, image.encode.2)) ∧
      (¬image.InRange → ∃ fault, image.faults.head? = some fault ∧
        image.validate = .error fault ∧ decode image.encode.1 = .error fault) := by
  have hdecode := decode_encode image hsize
  rw [← faults_eq_nil_iff]
  constructor
  · intro hfaults
    rw [hdecode, validate_eq_report, hfaults]
    rfl
  · intro hfaults
    obtain ⟨fault, rest, hcons⟩ := List.exists_cons_of_ne_nil hfaults
    have hvalidate : image.validate = .error fault := by
      rw [validate_eq_report, hcons]
      rfl
    refine ⟨fault, by rw [hcons]; rfl, hvalidate, ?_⟩
    rw [hdecode, hvalidate]
    rfl

/-- An image with one type and one class, whose base type has the number `base`. -/
def pageImage (base : UInt32) : ModuleImage where
  name := "Compiled.Page"
  buildMode := .debug
  strings := ["Page", "web.ui", "Base", "<p>"]
  types := [⟨1, 2⟩]
  classes := [{ name := 0, base, slotCount := 0, codeOffset := 0, codeLength := 6 }]
  code := [1, 3, 0, 0, 0, 6]

theorem decode_encode_pageImage :
    decode (pageImage 0).encode.1 = .ok (pageImage 0, (pageImage 0).encode.2) ∧
      decode (pageImage 7).encode.1 = .error (.invalidIndex "type reference" 7) := by
  constructor
  · have hsize : (pageImage 0).encode.1.length < UInt32.size := by
      rw [bytes_encode, length_bytes_write]
      decide +kernel
    apply (decode_encode_cases (pageImage 0) hsize).1
    exact (faults_eq_nil_iff _).mp (by decide +kernel)
  · have hsize : (pageImage 7).encode.1.length < UInt32.size := by
      rw [bytes_encode, length_bytes_write]
      decide +kernel
    have hfaults : (pageImage 7).faults = [.invalidIndex "type reference" 7] := by decide +kernel
    have hrange : ¬(pageImage 7).InRange := by
      rw [← faults_eq_nil_iff, hfaults]
      exact List.cons_ne_nil _ _
    obtain ⟨fault, hfault, -, hdecode⟩ := (decode_encode_cases (pageImage 7) hsize).2 hrange
    rw [hfaults] at hfault
    rw [hdecode, ← Option.some.inj hfault]

end PageScript.ModuleImage

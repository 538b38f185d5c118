import ModuleAssembly.Plugin

/-!
# Responses as bytes

A response is written as a sequence of fields, each with its number and then a number or bytes. The
compiler reads such fields one after the other (`Wire.readAll?`). Those of a response are its
features and, in a field for each of them, its files with their names and contents
(`Plugin.Response.decode?`). What is written for a response is read as this response
(`Plugin.Response.decode?_encode`), whatever its size.
-/

namespace ModuleAssembly

namespace Wire

/-! ## Reading -/

/-- Reads a field with a number or with bytes. -/
def readField? (bs : List UInt8) : Option (FieldData × List UInt8) := do
  let (tag, rest) ← readDigits? bs.length bs
  let (n, rest) ← readDigits? rest.length rest
  match tag % 8 with
  | 0 => return ((tag / 8, .varint n), rest)
  | 2 =>
    let (block, rest) ← readBytes? n rest
    return ((tag / 8, .bytes block), rest)
  | _ => none

/-- Reads such fields up to the end; `fuel` bounds how many. -/
def readSequence? : Nat → List UInt8 → Option (List FieldData)
  | _, [] => some []
  | 0, _ => none
  | fuel + 1, bs => do
    let (field, rest) ← readField? bs
    let fields ← readSequence? fuel rest
    return field :: fields

/-- Reads the fields of a message, each with a number or with bytes. -/
def readAll? (bs : List UInt8) : Option (List FieldData) :=
  readSequence? bs.length bs

/-! ## Numbers and bytes -/

/-- The bytes of a number are read as the number, and what comes after them is left. -/
theorem readDigits?_varintBytes {fuel n bound : Nat} (hfuel : n ≤ fuel)
    (hbound : (varintBytes fuel n).length ≤ bound) (rest : List UInt8) :
    readDigits? bound (varintBytes fuel n ++ rest) = some (n, rest) := by
  induction fuel generalizing n bound with
  | zero =>
    obtain rfl := Nat.le_zero.1 hfuel
    cases bound with
    | zero => cases hbound
    | succ bound => rfl
  | succ fuel ih =>
    rw [varintBytes] at hbound ⊢
    split
    · next hlast =>
      rw [if_pos hlast] at hbound
      cases bound with
      | zero => cases hbound
      | succ bound =>
        have hbyte : (UInt8.ofNat n).toNat = n :=
          UInt8.toNat_ofNat_of_lt' (Nat.lt_trans hlast (by decide))
        simp [readDigits?, hbyte, hlast]
    · next hmore =>
      rw [if_neg hmore, List.length_cons] at hbound
      cases bound with
      | zero => cases hbound
      | succ bound =>
        -- The first byte holds the last seven bits, and the others the number without them.
        have hbyte : (UInt8.ofNat (n % 128 + 128)).toNat = n % 128 + 128 :=
          UInt8.toNat_ofNat_of_lt' (show n % 128 + 128 < 256 by omega)
        have hrest := ih (n := n / 128) (by omega) (Nat.le_of_succ_le_succ hbound)
        have hlarge : ¬n % 128 + 128 < 128 := by omega
        have hnumber : n % 128 + 128 - 128 + 128 * (n / 128) = n := by omega
        simp only [List.cons_append, readDigits?, hbyte, if_neg hlarge, hrest, Option.map_some,
          hnumber]

/-- So are those of a number, where no more bytes are read than there are. -/
theorem readDigits?_varint (n : Nat) (rest : List UInt8) :
    readDigits? (varint n ++ rest).length (varint n ++ rest) = some (n, rest) := by
  refine readDigits?_varintBytes (Nat.le_refl n) ?_ rest
  rw [List.length_append]
  exact Nat.le_add_right _ _

/-- The bytes of a block are read by their number, and what comes after them is left. -/
theorem readBytes?_append (bs rest : List UInt8) :
    readBytes? bs.length (bs ++ rest) = some (bs, rest) := by
  simp [readBytes?]

/-- The bytes of a text are its bytes. -/
theorem text?_toUTF8 (s : String) : text? s.toUTF8.data.toList = some s := by
  rw [text?, Array.toArray_toList]
  exact dif_pos s.isValidUTF8

/-! ## Fields -/

/-- Bytes are those of a field: they are read as it, whatever comes after them. -/
def Encodes (bs : List UInt8) (field : FieldData) : Prop :=
  ∀ rest, readField? (bs ++ rest) = some (field, rest)

/-- A field with a number. -/
theorem encodes_varintField (number n : Nat) :
    Encodes (varintField number n) (number, .varint n) := by
  intro rest
  -- The tag holds the number of the field above three bits for the kind of its payload.
  have htype : number * 8 % 8 = 0 := by omega
  rw [varintField, List.append_assoc, readField?, readDigits?_varint]
  dsimp only [bind, Option.bind]
  rw [readDigits?_varint]
  simp [htype]

/-- A field with bytes. -/
theorem encodes_bytesField (number : Nat) (bs : List UInt8) :
    Encodes (bytesField number bs) (number, .bytes bs) := by
  intro rest
  have htag : (number * 8 + 2) % 8 = 2 ∧ (number * 8 + 2) / 8 = number := by omega
  rw [bytesField, List.append_assoc, List.append_assoc, readField?, readDigits?_varint]
  dsimp only [bind, Option.bind]
  rw [readDigits?_varint]
  simp [htag.1, htag.2, readBytes?_append]

/-- Bytes are those of a sequence of fields. -/
def EncodesAll (bs : List UInt8) (fields : List FieldData) : Prop :=
  ∀ fuel, bs.length ≤ fuel → readSequence? fuel bs = some fields

/-- They are read as these fields. -/
theorem EncodesAll.readAll?_eq {bs : List UInt8} {fields : List FieldData}
    (h : EncodesAll bs fields) : readAll? bs = some fields :=
  h bs.length (Nat.le_refl _)

/-- No bytes are no fields. -/
theorem encodesAll_nil : EncodesAll [] [] := by
  intro fuel _
  cases fuel with
  | zero | succ fuel => rfl

/-- A field in front of others. -/
theorem Encodes.append {bs rest : List UInt8} {field : FieldData} {fields : List FieldData}
    (h : Encodes bs field) (hrest : EncodesAll rest fields) :
    EncodesAll (bs ++ rest) (field :: fields) := by
  intro fuel hfuel
  have hread := h rest
  cases bs with
  | nil =>
    -- Nothing is read from no bytes.
    have hnone := h []
    cases hnone
  | cons b bs =>
    rw [List.cons_append, List.length_cons, List.length_append] at hfuel
    cases fuel with
    | zero => cases hfuel
    | succ fuel =>
      rw [List.cons_append] at hread ⊢
      rw [readSequence?, hread]
      · simp [hrest fuel (by omega)]
      · exact List.cons_ne_nil b _

/-- A field alone. -/
theorem Encodes.encodesAll {bs : List UInt8} {field : FieldData} (h : Encodes bs field) :
    EncodesAll bs [field] := by
  have hone := h.append encodesAll_nil
  rwa [List.append_nil] at hone

end Wire

namespace Plugin

open Wire (Encodes EncodesAll FieldData readAll? text?)

/-! ## Responses -/

/-- Puts a field into a file of a response, which has a name and a content and nothing else. -/
def ResponseFile.put? (f : ResponseFile) : FieldData → Option ResponseFile
  | (1, .bytes bs) => (text? bs).map fun name => { f with name }
  | (15, .bytes bs) => (text? bs).map fun content => { f with content }
  | _ => none

/-- Reads a file of a response. -/
def ResponseFile.decode? (bs : List UInt8) : Option ResponseFile := do
  (← readAll? bs).foldlM ResponseFile.put? ⟨"", ""⟩

namespace Response

/-- Puts a field into a response, which has features and files and nothing else. -/
def put? (r : Response) : FieldData → Option Response
  | (2, .varint n) => some { r with features := n }
  | (15, .bytes bs) => (ResponseFile.decode? bs).map fun f => { r with files := r.files ++ [f] }
  | _ => none

/-- Reads a response. -/
def decode? (bs : List UInt8) : Option Response := do
  (← readAll? bs).foldlM put? ⟨0, []⟩

/-- A text in a field. -/
theorem encodes_textField (number : Nat) (s : String) :
    Encodes (Wire.textField number s) (number, .bytes s.toUTF8.data.toList) :=
  Wire.encodes_bytesField number _

/-- The bytes of a file are read as the file. -/
theorem decode?_fileBytes (f : ResponseFile) : ResponseFile.decode? (fileBytes f) = some f := by
  have hfields := ((encodes_textField 1 f.name).append
    (encodes_textField 15 f.content).encodesAll).readAll?_eq
  rw [ResponseFile.decode?, fileBytes, hfields]
  simp only [Option.bind_eq_bind, Option.bind_some, List.foldlM_cons, List.foldlM_nil,
    ResponseFile.put?, Wire.text?_toUTF8, Option.map_some]
  rfl

/-- The bytes of files are those of a field for each. -/
theorem encodesAll_files (files : List ResponseFile) :
    EncodesAll (files.flatMap fun f => Wire.bytesField 15 (fileBytes f))
      (files.map fun f => (15, .bytes (fileBytes f))) := by
  induction files with
  | nil => exact Wire.encodesAll_nil
  | cons f files ih => exact (Wire.encodes_bytesField 15 (fileBytes f)).append ih

/-- The files are put into a response one after the other. -/
theorem foldlM_put?_files (r : Response) (files : List ResponseFile) :
    (files.map fun f => ((15, .bytes (fileBytes f)) : FieldData)).foldlM put? r =
      some { r with files := r.files ++ files } := by
  induction files generalizing r with
  | nil => simp
  | cons f files ih =>
    have hput : r.put? (15, .bytes (fileBytes f)) = some { r with files := r.files ++ [f] } := by
      rw [put?, decode?_fileBytes, Option.map_some]
    rw [List.map_cons, List.foldlM_cons, hput]
    simpa using ih { r with files := r.files ++ [f] }

/-- The bytes of a response are read as the response. -/
theorem decode?_encode (r : Response) : decode? r.encode = some r := by
  have hfields := ((Wire.encodes_varintField 2 r.features).append
    (encodesAll_files r.files)).readAll?_eq
  rw [decode?, encode, hfields]
  exact foldlM_put?_files ⟨r.features, []⟩ r.files

/-- A response with one file of one character. -/
example : decode? [16, 1, 122, 9, 10, 4, 97, 46, 116, 115, 122, 1, 59] =
    some { features := 1, files := [{ name := "a.ts", content := ";" }] } := by
  decide +kernel

end Response

end Plugin

end ModuleAssembly

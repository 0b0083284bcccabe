import UaRateThrottling.Binary.RoundTrip

/-!
# Truncated messages

A decoder that reads a value from some bytes reads the same value when more bytes follow, and with
more fuel (`extends_decode`).  So nothing is read from a part of an encoding
(`decode_eq_none_of_part`).

This rests on every type having members: the decoder jumps over the size of the content of an
extension object without looking whether it is there, and a content without members would not miss
it.
-/

namespace UA

namespace Binary

open Json (Parser Extends extends_pure extends_failure)
open Codec

/-! ### Builtin types -/

theorem extends_decodeByte :
  Extends decodeByte decodeByte
  := by
  apply (extends_number 1).bind
  intro n
  apply extends_pure

theorem extends_decodeUInt16 :
  Extends decodeUInt16 decodeUInt16
  := by
  apply (extends_number 2).bind
  intro n
  apply extends_pure

theorem extends_decodeUInt32 :
  Extends decodeUInt32 decodeUInt32
  := by
  apply (extends_number 4).bind
  intro n
  apply extends_pure

theorem extends_decodeUInt64 :
  Extends decodeUInt64 decodeUInt64
  := by
  apply (extends_number 8).bind
  intro n
  apply extends_pure

theorem extends_decodeString :
  Extends decodeString decodeString
  := by
  apply extends_decodeUInt32.bind
  intro length
  apply Extends.ite (extends_pure _)
  apply (extends_take _).bind
  intro s
  apply extends_pure

theorem extends_decodeGuid :
  Extends decodeGuid decodeGuid
  := by
  apply extends_decodeUInt32.bind
  intro data1
  apply extends_decodeUInt16.bind
  intro data2
  apply extends_decodeUInt16.bind
  intro data3
  apply (extends_take 8).bind
  intro data4
  apply extends_pure

theorem extends_decodeNodeIdBody (encodingByte : UInt8) :
  Extends (decodeNodeIdBody encodingByte) (decodeNodeIdBody encodingByte)
  := by
  rw [decodeNodeIdBody]
  apply Extends.ite
  · apply extends_decodeByte.bind
    intro n
    apply extends_pure
  apply Extends.ite
  · apply extends_decodeByte.bind
    intro namespaceIndex
    apply extends_decodeUInt16.bind
    intro n
    apply extends_pure
  apply Extends.ite
  · apply extends_decodeUInt16.bind
    intro namespaceIndex
    apply extends_decodeUInt32.bind
    intro n
    apply extends_pure
  apply Extends.ite
  · apply extends_decodeUInt16.bind
    intro namespaceIndex
    apply extends_decodeString.bind
    intro s
    apply extends_pure
  apply Extends.ite
  · apply extends_decodeUInt16.bind
    intro namespaceIndex
    apply extends_decodeGuid.bind
    intro g
    apply extends_pure
  apply Extends.ite
  · apply extends_decodeUInt16.bind
    intro namespaceIndex
    apply extends_decodeString.bind
    intro s
    apply extends_pure
  apply extends_failure

theorem extends_decodeNodeId :
  Extends decodeNodeId decodeNodeId
  := by
  apply extends_decodeByte.bind
  apply extends_decodeNodeIdBody

theorem extends_decodePart {α : Type} {p q : Parser α} (present : Bool) (h : Extends p q) :
  Extends (decodePart present p) (decodePart present q)
  := by
  apply Extends.ite
  · apply h.bind
    intro x
    apply extends_pure
  · apply extends_pure

theorem extends_decodeExpandedNodeId :
  Extends decodeExpandedNodeId decodeExpandedNodeId
  := by
  apply extends_decodeByte.bind
  intro encoding
  apply (extends_decodeNodeIdBody _).bind
  intro id
  apply (extends_decodePart _ extends_decodeString).bind
  intro namespaceUri
  apply (extends_decodePart _ extends_decodeUInt32).bind
  intro serverIndex
  apply extends_pure

theorem extends_decodeLocalizedText :
  Extends decodeLocalizedText decodeLocalizedText
  := by
  apply extends_decodeByte.bind
  intro encoding
  apply (extends_decodePart _ extends_decodeString).bind
  intro locale
  apply (extends_decodePart _ extends_decodeString).bind
  intro text
  apply extends_pure

theorem extends_decodeStamps (encodingMask : UInt8) :
  Extends (decodeStamps encodingMask) (decodeStamps encodingMask)
  := by
  apply (extends_decodePart _ extends_decodeUInt32).bind
  intro status
  apply (extends_decodePart _ extends_decodeUInt64).bind
  intro sourceTimestamp
  apply (extends_decodePart _ extends_decodeUInt16).bind
  intro sourcePicoseconds
  apply (extends_decodePart _ extends_decodeUInt64).bind
  intro serverTimestamp
  apply (extends_decodePart _ extends_decodeUInt16).bind
  intro serverPicoseconds
  apply extends_pure

theorem extends_decodeDiagnostics (encodingMask : UInt8) :
  Extends (decodeDiagnostics encodingMask) (decodeDiagnostics encodingMask)
  := by
  apply (extends_decodePart _ extends_decodeUInt32).bind
  intro symbolicId
  apply (extends_decodePart _ extends_decodeUInt32).bind
  intro namespaceUri
  apply (extends_decodePart _ extends_decodeUInt32).bind
  intro localizedText
  apply (extends_decodePart _ extends_decodeUInt32).bind
  intro locale
  apply (extends_decodePart _ extends_decodeString).bind
  intro additionalInfo
  apply (extends_decodePart _ extends_decodeUInt32).bind
  intro innerStatusCode
  apply extends_pure

theorem extends_decodeDiagnosticInfo {fuel fuel' : Nat} (h : fuel ≤ fuel') :
  Extends (decodeDiagnosticInfo fuel) (decodeDiagnosticInfo fuel')
  := by
  induction fuel generalizing fuel' with
  | zero => apply extends_failure
  | succ fuel ih =>
      obtain ⟨fuel', rfl⟩ := Nat.exists_eq_succ_of_ne_zero (Nat.ne_zero_of_lt h)
      apply extends_decodeByte.bind
      intro encodingMask
      apply (extends_decodeDiagnostics _).bind
      intro info
      apply Extends.ite
      · apply (ih (Nat.le_of_succ_le_succ h)).bind
        intro inner
        apply extends_pure
      · apply extends_pure

/-! ### Arrays and structures -/

section

variable {types : List DataType} {decode decode' : Entry → List DataTypeMember → Parser Value}

/-- What `decode` reads, `decode'` reads as well, whatever follows. -/
def AllExtend (decode decode' : Entry → List DataTypeMember → Parser Value) : Prop :=
  ∀ entry members, Extends (decode entry members) (decode' entry members)

/-- The decoder of a type that is looked up. -/
theorem extends_elim {α β : Type} {p q : β → Parser α} {part : Option β}
    (h : ∀ x ∈ part, Extends (p x) (q x)) :
  Extends (part.elim failure p) (part.elim failure q)
  := by
  cases part with
  | none => apply extends_failure
  | some x => apply h x rfl

theorem extends_decodeArray (h : AllExtend decode decode') (type : DataType) :
  Extends (decodeArray decode type) (decodeArray decode' type)
  := by
  have helement : Extends (decodeElement decode type) (decodeElement decode' type) := by
    apply Extends.ite
    · apply extends_decodeByte.bind
      intro b
      apply extends_pure
    · apply h
  apply extends_decodeUInt32.bind
  intro length
  apply Extends.ite (extends_pure _)
  apply Extends.ite (extends_pure _)
  apply (extends_need _).bind
  intro _
  apply (extends_need _).bind
  intro _
  apply (extends_items helement _).bind
  intro elements
  apply extends_pure

theorem extends_decodeDimensions :
  Extends decodeDimensions decodeDimensions
  := by
  apply extends_decodeUInt32.bind
  intro length
  apply Extends.ite (extends_pure _)
  apply (extends_need _).bind
  intro _
  apply extends_items extends_decodeUInt32

theorem extends_decodeMembers (h : AllExtend decode decode') (members : List DataTypeMember) :
  Extends (decodeMembers types decode members) (decodeMembers types decode' members)
  := by
  induction members with
  | nil => apply extends_pure
  | cons member members ih =>
      have hmember : ∀ type : DataType, Extends
          (if member.isArray then decodeArray decode type else decode type.entry type.members)
          (if member.isArray then decodeArray decode' type
            else decode' type.entry type.members) := by
        intro type
        apply Extends.ite (extends_decodeArray h type) (h _ _)
      apply (extends_elim (fun type _ => hmember type)).bind
      intro value
      apply ih.bind
      intro values
      apply extends_pure

/-- Every type reads something. -/
def Wants (types : List DataType) (decode : Entry → List DataTypeMember → Parser Value) : Prop :=
  ∀ type ∈ types, (decode type.entry type.members).run [] = none

/-- The content of an extension object is waited for. -/
theorem extends_content (h : AllExtend decode decode') (hwants : Wants types decode)
    {index : Nat} {f : Value → Value} :
  Extends
    ((types[index]?).elim failure (fun type => do
      skip 4
      let data ← decode type.entry type.members
      pure (f data)))
    ((types[index]?).elim failure (fun type => do
      skip 4
      let data ← decode' type.entry type.members
      pure (f data)))
  := by
  apply extends_elim
  intro type htype
  apply extends_jump
  · apply (h _ _).bind
    intro data
    apply extends_pure
  · rw [StateT.run_bind, hwants type (List.mem_of_getElem? htype)]
    rfl

theorem extends_decodeObject (h : AllExtend decode decode') (hwants : Wants types decode) :
  Extends (decodeObject types decode) (decodeObject types decode')
  := by
  apply extends_decodeNodeId.bind
  intro typeId
  apply extends_decodeByte.bind
  intro encoding
  cases typeId.identifier with
  | numeric n =>
      apply Extends.ite
      · simp only [decodeContent]
        cases findDataTypeByBinary types n with
        | none =>
            apply extends_decodeString.bind
            intro s
            apply extends_pure
        | some index => apply extends_content h hwants
      apply Extends.ite (extends_pure _)
      apply Extends.ite
      · apply extends_decodeString.bind
        intro s
        apply extends_pure
      apply extends_failure
  | _ => apply extends_failure

theorem extends_decodeUnwrapped (h : AllExtend decode decode') (hwants : Wants types decode) :
  Extends (decodeUnwrapped types decode) (decodeUnwrapped types decode')
  := by
  have hstart : Extends decodeObjectStart decodeObjectStart := by
    apply extends_decodeNodeId.bind
    intro typeId
    apply extends_decodeByte.bind
    intro encoding
    apply extends_pure
  intro s value r t hrun
  obtain ⟨⟨start, rest⟩, hs, hrun⟩ := Option.bind_eq_some_iff.mp hrun
  apply Option.bind_eq_some_iff.mpr ⟨(start, rest ++ t), hstart s start rest t hs, _⟩
  dsimp only at hrun ⊢
  cases hunwrapped : unwrappedType types start.1 start.2 with
  | none =>
      rw [hunwrapped] at hrun
      have hobject := (extends_decodeObject h hwants).bind (fun data =>
        extends_pure (Value.scalarVariant extensionObjectIndex data))
      apply hobject s value r t hrun
  | some index =>
      rw [hunwrapped] at hrun
      apply extends_content h hwants rest value r t hrun

theorem extends_decodeVariant (h : AllExtend decode decode') (hwants : Wants types decode) :
  Extends (decodeVariant types decode) (decodeVariant types decode')
  := by
  apply extends_decodeByte.bind
  intro encodingByte
  apply Extends.ite (extends_pure _)
  apply extends_elim
  intro index _
  apply Extends.ite
  · apply (extends_elim (fun type _ => extends_decodeArray h type)).bind
    intro data
    apply (extends_decodePart _ extends_decodeDimensions).bind
    intro dimensions
    apply extends_pure
  apply Extends.ite (extends_decodeUnwrapped h hwants)
  apply (extends_elim (fun type _ => h _ type.members)).bind
  intro data
  apply extends_pure

end

/-! ### Values -/

/-- Nothing is decoded from no bytes. -/
theorem run_decode_nil {types : List DataType} (htypes : ∀ type ∈ types, type.members ≠ [])
    (fuel : Nat) {entry : Entry} {members : List DataTypeMember}
    (hmembers : entry = .internal → members ≠ []) :
  (decode types fuel entry members).run [] = none
  := by
  induction fuel generalizing entry members with
  | zero => rfl
  | succ fuel ih =>
      cases entry with
      | internal =>
          cases members with
          | nil => cases hmembers rfl rfl
          | cons member members =>
              have hmember : ((types[member.memberTypeIndex]?).elim failure (fun type =>
                  if member.isArray then decodeArray (decode types fuel) type
                  else decode types fuel type.entry type.members)).run [] = none := by
                cases htype : types[member.memberTypeIndex]? with
                | none => rfl
                | some type =>
                    rw [Option.elim_some]
                    split
                    · rfl
                    · apply ih
                      intro _
                      apply htypes type (List.mem_of_getElem? htype)
              rw [decode, StateT.run_bind, decodeMembers, StateT.run_bind, hmember]
              rfl
      | _ => rfl

/-- What is read from some bytes is read as well when more bytes follow, and with more fuel. -/
theorem extends_decode {types : List DataType} (htypes : ∀ type ∈ types, type.members ≠ [])
    {fuel fuel' : Nat} (h : fuel ≤ fuel') :
  AllExtend (decode types fuel) (decode types fuel')
  := by
  induction fuel generalizing fuel' with
  | zero =>
      intro entry members
      apply extends_failure
  | succ fuel ih =>
      intro entry members
      obtain ⟨fuel', rfl⟩ := Nat.exists_eq_succ_of_ne_zero (Nat.ne_zero_of_lt h)
      have hless := ih (Nat.le_of_succ_le_succ h)
      have hwants : Wants types (decode types fuel) := by
        intro type htype
        apply run_decode_nil htypes fuel
        intro _
        apply htypes type htype
      cases entry with
      | boolean => exact extends_decodeByte.bind (fun b => extends_pure _)
      | byte => exact extends_decodeByte.bind (fun n => extends_pure _)
      | uint16 => exact extends_decodeUInt16.bind (fun n => extends_pure _)
      | uint32 => exact extends_decodeUInt32.bind (fun n => extends_pure _)
      | uint64 => exact extends_decodeUInt64.bind (fun n => extends_pure _)
      | string => exact extends_decodeString.bind (fun s => extends_pure _)
      | guid => exact extends_decodeGuid.bind (fun g => extends_pure _)
      | nodeId => exact extends_decodeNodeId.bind (fun id => extends_pure _)
      | expandedNodeId => apply extends_decodeExpandedNodeId
      | localizedText => apply extends_decodeLocalizedText
      | extensionObject => apply extends_decodeObject hless hwants
      | dataValue =>
          apply extends_decodeByte.bind
          intro encodingMask
          apply (extends_decodePart _ (hless _ _)).bind
          intro value
          apply (extends_decodeStamps _).bind
          intro stamps
          apply extends_pure
      | variant => apply extends_decodeVariant hless hwants
      | diagnosticInfo => exact (extends_decodeDiagnosticInfo h).bind (fun info => extends_pure _)
      | internal => exact (extends_decodeMembers hless members).bind (fun values => extends_pure _)

/-- No proper part of an encoding at its front decodes, whatever the fuel. -/
theorem decode_eq_none_of_part {types : List DataType}
    (htypes : ∀ type ∈ types, type.members ≠ []) {type : DataType} {values : List Value}
    (h : HaveMemberTypes types type.members values) {bytes : List UInt8}
    (hbytes : encodeBinary types type values = some bytes) {part : List UInt8}
    (hpart : part <+: bytes) (hne : part ≠ bytes) (fuel : Nat) :
  (decodeBinary types fuel type).run part = none
  := by
  obtain ⟨bytes', hbytes', hread⟩ :=
    codes_members (readsUpTo_decode types (max fuel (depths values + 1))) h (by omega)
  obtain rfl := Option.some.inj (hbytes.symm.trans hbytes')
  apply hread.run_eq_none_of_part _ hpart hne
  apply extends_decodeMembers
  apply extends_decode htypes (by omega)

theorem decode_eq_none_of_part_fewValues :
  ∃ bytes, encodeBinary fewTypes fewTypes[4] fewValues = some bytes ∧ bytes.length = 39 ∧
    (decodeBinary fewTypes 9 fewTypes[4]).run (bytes.take 38) = none
  := ⟨_, rfl, rfl, decode_eq_none_of_part (by decide) hasType_fewValues rfl
    (List.take_prefix 38 _) (by decide) 9⟩

end Binary

end UA

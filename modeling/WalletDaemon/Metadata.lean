import WalletDaemon.Scale
import Mathlib.Data.List.Nodup

/-! Chain metadata: pallets, their calls, and the type registry.
Only what naming a call and laying out its arguments reads is kept. -/

namespace WalletDaemon

open Scale

structure CallArg where
  name : String
  ty : TypeId
deriving DecidableEq, Repr

structure CallMetadata where
  name : String
  index : UInt8
  args : List CallArg
deriving DecidableEq, Repr

structure PalletMetadata where
  name : String
  index : UInt8
  calls : List CallMetadata
deriving DecidableEq, Repr

structure Metadata where
  pallets : List PalletMetadata
  types : PortableRegistry
deriving DecidableEq, Repr

structure CallInfo where
  palletName : String
  palletIndex : UInt8
  callName : String
  callIndex : UInt8
  args : List CallArg
deriving DecidableEq, Repr

namespace Metadata

def callInfo (pallet : PalletMetadata) (call : CallMetadata) : CallInfo :=
  ⟨pallet.name, pallet.index, call.name, call.index, call.args⟩

/-- The first pallet and call with these indices. -/
def extrinsicCallInfoByIndex (metadata : Metadata) (palletIndex callIndex : UInt8) :
    Except String CallInfo :=
  match metadata.pallets.find? fun p => p.index = palletIndex with
  | none => .error "pallet index not found"
  | some pallet =>
    match pallet.calls.find? fun c => c.index = callIndex with
    | none => .error "call index not found"
    | some call => .ok (callInfo pallet call)

/-- The first pallet and call with these names. -/
def extrinsicCallInfoByName (metadata : Metadata) (palletName callName : String) :
    Except String CallInfo :=
  match metadata.pallets.find? fun p => p.name = palletName with
  | none => .error "pallet name not found"
  | some pallet =>
    match pallet.calls.find? fun c => c.name = callName with
    | none => .error "call name not found"
    | some call => .ok (callInfo pallet call)

/-- No two pallets share a name, and no two calls of a pallet do. -/
structure UniqueNames (metadata : Metadata) : Prop where
  pallets : (metadata.pallets.map PalletMetadata.name).Nodup
  calls : ∀ pallet ∈ metadata.pallets, (pallet.calls.map CallMetadata.name).Nodup

theorem find?_name {A : Type} {name : A → String} {items : List A}
    (unique : (items.map name).Nodup) {item : A} (member : item ∈ items) :
    items.find? (fun other => name other = name item) = some item := by
  induction items with
  | nil => cases member
  | cons first rest ih =>
    rw [List.map_cons, List.nodup_cons] at unique
    by_cases same : name first = name item
    · rw [List.find?_cons_of_pos (by simpa using same)]
      rcases List.mem_cons.mp member with here | later
      · rw [here]
      · exact absurd (List.mem_map_of_mem later) (same ▸ unique.1)
    · rw [List.find?_cons_of_neg (by simpa using same)]
      have later : item ∈ rest :=
        (List.mem_cons.mp member).resolve_left fun here => same (by rw [here])
      exact ih unique.2 later

/-- The names of a call found by its indices lead back to it. -/
theorem byName_of_byIndex {metadata : Metadata} (unique : metadata.UniqueNames)
    {palletIndex callIndex : UInt8} {info : CallInfo}
    (h : metadata.extrinsicCallInfoByIndex palletIndex callIndex = .ok info) :
    metadata.extrinsicCallInfoByName info.palletName info.callName = .ok info ∧
      info.palletIndex = palletIndex ∧ info.callIndex = callIndex := by
  unfold extrinsicCallInfoByIndex at h
  split at h
  · cases h
  rename_i pallet foundPallet
  split at h
  · cases h
  rename_i call foundCall
  have made : callInfo pallet call = info := Except.ok.inj h
  have member := List.mem_of_find?_eq_some foundPallet
  have named := find?_name unique.pallets member
  have calls := find?_name (unique.calls pallet member) (List.mem_of_find?_eq_some foundCall)
  have index := List.find?_some foundPallet
  have callIndex_ := List.find?_some foundCall
  rw [← made]
  refine ⟨?_, of_decide_eq_true index, of_decide_eq_true callIndex_⟩
  change metadata.extrinsicCallInfoByName pallet.name call.name = _
  rw [extrinsicCallInfoByName, named]
  dsimp only
  rw [calls]

end Metadata

end WalletDaemon

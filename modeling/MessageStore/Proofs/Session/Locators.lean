import Mathlib.Data.List.TakeWhile
import MessageStore.Proofs.Outcome
import MessageStore.Proofs.Text.Hexadecimal
import MessageStore.Proofs.Text.Utf8
import MessageStore.Session.Handle

/-!
# Locators of stores in memory

The locator of a store in memory is read as what it is written for: the name of the
store, and that the data is in memory and shared.  Two of them ask for the same data
exactly if their names are the same.  Data in memory under such a name is always
shared and can always be written, whatever the locator is that asks for it.
-/

namespace MessageStore

open Text (encode encodeChars pieces)

namespace Locator

/-! ## Bytes that stand for themselves -/

/-- A byte as a sign that stands for itself. -/
def plain (byte : UInt8) : Sign :=
  ⟨byte, false⟩

/-- A byte that neither begins a number, nor ends a name, nor ends everything. -/
structure IsPlain (byte : UInt8) : Prop where
  noPercent : byte ≠ '%'.toUInt8
  noQuestion : byte ≠ '?'.toUInt8
  noHash : byte ≠ '#'.toUInt8
  noZero : byte ≠ 0

instance (byte : UInt8) : Decidable (IsPlain byte) :=
  decidable_of_iff
    (byte ≠ '%'.toUInt8 ∧ byte ≠ '?'.toUInt8 ∧ byte ≠ '#'.toUInt8 ∧ byte ≠ 0)
    ⟨fun ⟨noPercent, noQuestion, noHash, noZero⟩ => ⟨noPercent, noQuestion, noHash, noZero⟩,
      fun isPlain => ⟨isPlain.noPercent, isPlain.noQuestion, isPlain.noHash, isPlain.noZero⟩⟩

theorem isPlain_of_all {bytes : List UInt8}
    (all : (bytes.all fun byte => decide (IsPlain byte)) = true) :
    ∀ byte ∈ bytes, IsPlain byte :=
  fun byte member => of_decide_eq_true (List.all_eq_true.mp all byte member)

/-- Bytes without a percent sign stand for themselves. -/
theorem signs_of_free {bytes : List UInt8} (free : '%'.toUInt8 ∉ bytes) :
    signs bytes = bytes.map plain := by
  fun_induction signs bytes with
  | case1 => rfl
  | case2 => rfl
  | case3 => rfl
  | case4 a b c rest high low ends begins ih =>
      have apart : a ≠ '%'.toUInt8 := fun same => free (List.mem_cons.mpr (.inl same.symm))
      rw [if_neg apart] at begins
      cases begins
  | case5 a b c rest _ ih =>
      rw [ih fun member => free (List.mem_cons_of_mem _ member)]
      rfl

theorem cut_append {mark : Sign} {front : List Sign} (free : mark ∉ front) (rest : List Sign) :
    cut mark (front ++ mark :: rest) = (front, rest) := by
  have apart : ∀ sign ∈ front, decide (sign ≠ mark) = true := fun sign member =>
    decide_eq_true fun same => free (same ▸ member)
  rw [cut, List.takeWhile_append_of_pos apart, List.dropWhile_append_of_pos apart]
  simp

theorem mark_not_mem_plain {c : Char} {bytes : List UInt8} (free : c.toUInt8 ∉ bytes) :
    mark c ∉ bytes.map plain := by
  intro member
  obtain ⟨byte, inside, same⟩ := List.mem_map.mp member
  obtain rfl : byte = c.toUInt8 := congrArg Sign.byte same
  exact free inside

theorem spelled_plain {bytes : List UInt8} (noZero : 0 ∉ bytes) :
    spelled (bytes.map plain) = bytes := by
  unfold spelled
  rw [List.map_map]
  change (bytes.map id).takeWhile _ = _
  rw [List.map_id, List.takeWhile_eq_self_iff]
  exact fun byte member => decide_eq_true fun zero => noZero (zero ▸ member)

/-- A locator whose bytes stand for themselves has the name before the question mark, and the
parameters behind it. -/
theorem ofBytes_of_plain {name rest : List UInt8} (plainName : ∀ byte ∈ name, IsPlain byte)
    (plainRest : ∀ byte ∈ rest, IsPlain byte) :
    ofBytes (name ++ '?'.toUInt8 :: rest) =
      ⟨name, (pieces (mark '&') (rest.map plain)).filterMap parameter?⟩ := by
  have apart {byte : UInt8} (unlike : byte ≠ '?'.toUInt8) (inName : byte ∉ name)
      (inRest : byte ∉ rest) : byte ∉ name ++ '?'.toUInt8 :: rest := by
    rw [List.mem_append, List.mem_cons]
    exact not_or.mpr ⟨inName, not_or.mpr ⟨unlike, inRest⟩⟩
  have noPercent : '%'.toUInt8 ∉ name ++ '?'.toUInt8 :: rest :=
    apart (by decide) (fun member => (plainName _ member).noPercent rfl)
      fun member => (plainRest _ member).noPercent rfl
  have noHash : mark '#' ∉ (name ++ '?'.toUInt8 :: rest).map plain :=
    mark_not_mem_plain (apart (by decide) (fun member => (plainName _ member).noHash rfl)
      fun member => (plainRest _ member).noHash rfl)
  have noQuestion : mark '?' ∉ name.map plain :=
    mark_not_mem_plain fun member => (plainName _ member).noQuestion rfl
  have whole : (signs (name ++ '?'.toUInt8 :: rest)).takeWhile (· ≠ mark '#') =
      name.map plain ++ mark '?' :: rest.map plain := by
    rw [signs_of_free noPercent, List.takeWhile_eq_self_iff.mpr, List.map_append]
    · rfl
    · exact fun sign member => decide_eq_true fun same => noHash (same ▸ member)
  unfold ofBytes
  rw [whole, cut_append noQuestion]
  simp only
  rw [spelled_plain fun member => (plainName _ member).noZero rfl]

end Locator

/-! ## Stores in memory -/

namespace Target

variable {bits other : Nat}

/-- What stands behind the name in the locator of a store in memory. -/
def sharing : List UInt8 :=
  encodeChars "mode=memory&cache=shared".toList

theorem isPlain_of_mem_hexDigits {c : Char} (digit : c ∈ Text.hexDigits) :
    ∀ byte ∈ String.utf8EncodeChar c, Locator.IsPlain byte := by
  have plain : (Text.hexDigits.all fun c =>
      (String.utf8EncodeChar c).all fun byte => decide (Locator.IsPlain byte)) = true := by
    decide
  exact Locator.isPlain_of_all (List.all_eq_true.mp plain c digit)

theorem toList_nameOfBits (bits : Nat) :
    (nameOfBits bits).toList = "beacon-".toList ++ Text.uuidOfBits bits := by
  simp [nameOfBits]

theorem encode_nameOfBits (bits : Nat) :
    encode (nameOfBits bits) =
      encodeChars "beacon-".toList ++ encodeChars (Text.uuidOfBits bits) := by
  rw [Text.encode_eq, toList_nameOfBits]
  exact List.flatMap_append

theorem isPlain_nameOfBits (bits : Nat) :
    ∀ byte ∈ encode (nameOfBits bits), Locator.IsPlain byte := by
  have plainFront : ∀ byte ∈ encodeChars "beacon-".toList, Locator.IsPlain byte :=
    Locator.isPlain_of_all (by decide)
  rw [encode_nameOfBits]
  intro byte member
  rcases List.mem_append.mp member with front | digit
  · exact plainFront byte front
  · obtain ⟨c, inside, member⟩ := List.mem_flatMap.mp digit
    exact isPlain_of_mem_hexDigits (Text.mem_hexDigits_of_mem_uuidOfBits inside) byte member

theorem toList_memoryLocator (bits : Nat) :
    (memoryLocator bits).toList = 'f' :: 'i' :: 'l' :: 'e' :: ':' ::
      ((nameOfBits bits).toList ++ '?' :: "mode=memory&cache=shared".toList) := by
  rw [memoryLocator, String.toList_append, String.toList_append, List.append_assoc]
  rfl

/-- What stands behind the prefix names the store, and says that it is in memory and shared. -/
theorem parse_memoryLocator (bits : Nat) :
    Locator.parse ((nameOfBits bits).toList ++ '?' :: "mode=memory&cache=shared".toList) =
      .ok ⟨encode (nameOfBits bits),
        [(encode "mode", encode "memory"), (encode "cache", encode "shared")]⟩ := by
  have noHost (rest : List Char) : Locator.splitHost ((nameOfBits bits).toList ++ rest) =
      (none, (nameOfBits bits).toList ++ rest) := by
    rw [toList_nameOfBits]
    rfl
  have bytes : encode (String.ofList
      ((nameOfBits bits).toList ++ '?' :: "mode=memory&cache=shared".toList)) =
        encode (nameOfBits bits) ++ '?'.toUInt8 :: sharing := by
    rw [Text.encode_eq, Text.encode_eq, String.toList_ofList]
    exact List.flatMap_append
  have plainSharing : ∀ byte ∈ sharing, Locator.IsPlain byte :=
    Locator.isPlain_of_all (by decide)
  have parameters : (pieces (Locator.mark '&') (sharing.map Locator.plain)).filterMap
      Locator.parameter? =
        [(encode "mode", encode "memory"), (encode "cache", encode "shared")] := by
    decide +kernel
  unfold Locator.parse
  rw [noHost]
  change Except.ok (Locator.ofBytes (encode (String.ofList _))) = _
  rw [bytes, Locator.ofBytes_of_plain (isPlain_nameOfBits bits) plainSharing, parameters]

/-- A locator asks for data in memory that is shared under a name. -/
theorem ofLocator_of_shared {locator : Locator} {request : Request}
    (asked : Request.ofLocator locator = .ok request) (named : locator.name ≠ [])
    (inMemory : request.rights = .memory) (shared : request.shared = true) (path : String) :
    ofLocator path locator = .ok (.memory locator.name { request with immutable := false }) := by
  unfold ofLocator
  rw [asked]
  change (if locator.name = [] then _ else _) = _
  rw [if_neg named, if_pos (.inr inMemory), if_pos shared]
  rfl

/-- The locator of a store in memory asks for data in memory that is shared under its name. -/
theorem ofPath_memoryLocator (bits : Nat) :
    ofPath (memoryLocator bits) =
      .ok (.memory (encode (nameOfBits bits)) { rights := .memory, shared := true }) := by
  have asked (name : List UInt8) : Request.ofLocator ⟨name,
      [(encode "mode", encode "memory"), (encode "cache", encode "shared")]⟩ =
        .ok { rights := .memory, shared := true } := by
    change Request.ofLocator ⟨[],
      [(encode "mode", encode "memory"), (encode "cache", encode "shared")]⟩ = _
    decide +kernel
  have named : encode (nameOfBits bits) ≠ [] := by
    rw [encode_nameOfBits]
    nofun
  have apart {text : String} (begins : text.toList.head? ≠ some 'f') :
      memoryLocator bits ≠ text := by
    rintro rfl
    rw [toList_memoryLocator] at begins
    exact begins rfl
  unfold ofPath
  rw [if_neg (not_or.mpr ⟨apart (by decide), apart (by decide)⟩), toList_memoryLocator]
  change (Locator.parse _ >>= fun locator => ofLocator _ locator) = _
  rw [parse_memoryLocator]
  exact ofLocator_of_shared (asked _) named rfl rfl _

/-! ## Data that is shared under a name -/

/-- The name under which a target shares data in memory with the handles of the standard
backend. -/
def sharedName? : Target → Option (List UInt8)
  | .memory name request => if request.backend = .standard then some name else none
  | _ => none

/-- Data in memory that the standard backend keeps under a name is shared. -/
theorem shared_of_ofLocator {path : String} {locator : Locator} {name : List UInt8}
    {request : Request} (asked : ofLocator path locator = .ok (.memory name request))
    (standard : request.backend = .standard) : request.shared = true := by
  obtain ⟨asking, -, found⟩ := bind_eq_ok_iff.mp asked
  simp only at found
  split at found
  · cases found
  · split at found
    · split at found
      · rename_i shared
        cases found
        exact shared
      · cases found
    · split at found
      · -- The backend is another one here.
        rename_i other
        split at found
        · cases found
        · split at found
          · cases found
            cases other.symm.trans standard
          · cases found
      · cases found

theorem shared_of_ofPath {path : String} {name : List UInt8} {request : Request}
    (asked : ofPath path = .ok (.memory name request))
    (standard : request.backend = .standard) : request.shared = true := by
  unfold ofPath at asked
  split at asked
  · cases asked
  · split at asked
    · obtain ⟨locator, -, found⟩ := bind_eq_ok_iff.mp asked
      exact shared_of_ofLocator found standard
    · cases asked

/-- A locator holds no character U+0000. -/
theorem nulByte?_memoryLocator (bits : Nat) : Host.Path.nulByte? (memoryLocator bits) = none := by
  have free : ∀ c ∈ (memoryLocator bits).toList, decide (c ≠ '\x00') = true := by
    have inDigits : (Text.hexDigits.all fun c => decide (c ≠ '\x00')) = true := by
      decide
    have around : (("file:".toList ++ "beacon-".toList ++
        "?mode=memory&cache=shared".toList).all fun c => decide (c ≠ '\x00')) = true := by
      decide
    rw [List.all_eq_true] at inDigits around
    intro c member
    rw [memoryLocator, String.toList_append, String.toList_append, toList_nameOfBits] at member
    simp only [List.mem_append] at member around
    rcases member with (file | beacon | digit) | sharing
    · exact around c (.inl (.inl file))
    · exact around c (.inl (.inr beacon))
    · exact inDigits c (Text.mem_hexDigits_of_mem_uuidOfBits digit)
    · exact around c (.inr sharing)
  unfold Host.Path.nulByte?
  rw [List.takeWhile_eq_self_iff.mpr free]
  simp only [String.length_toList, Nat.lt_irrefl, if_false]

end Target

/-- The name under which what a path or a locator leads to is shared, if it is data in memory of the
standard backend. -/
def sharedName? (path : String) : Option (List UInt8) :=
  match Host.Path.nulByte? path, Target.ofPath path with
  | none, .ok target => target.sharedName?
  | _, _ => none

/-- What is shared under a name is data in memory, and asked for as such. -/
theorem exists_request_of_shared {path : String} {name : List UInt8}
    (shared : sharedName? path = some name) :
    Host.Path.nulByte? path = none ∧ ∃ request,
      Target.ofPath path = .ok (.memory name request) ∧ request.backend = .standard ∧
        request.shared = true := by
  unfold sharedName? at shared
  split at shared
  · rename_i target noNul asked
    cases target with
    | memory other request =>
        unfold Target.sharedName? at shared
        simp only at shared
        split at shared
        · rename_i standard
          cases shared
          exact ⟨noNul, request, asked, standard, Target.shared_of_ofPath asked standard⟩
        · cases shared
    | own | file => cases shared
  · cases shared

/-- A path that names a file leads to nothing that is shared under a name. -/
theorem sharedName?_of_file {path : String} {name : List UInt8} {request : Request}
    (target : Target.ofPath path = .ok (.file name request)) : sharedName? path = none := by
  unfold sharedName?
  rw [target]
  split
  · rename_i same
    cases same
    rfl
  · rfl

namespace Origin

variable {origin other : Origin} {name : List UInt8}

/-- The path or the locator that an origin is opened by. -/
def locator : Origin → String
  | .path text => text
  | .memory bits => Target.memoryLocator bits

/-- Whether origins lead to one dataset: they are the same, or data in memory is shared under one
name. -/
def meets (origin other : Origin) : Bool :=
  origin = other ||
    (sharedName? origin.locator).isSome && sharedName? origin.locator = sharedName? other.locator

theorem sharedName?_memory (bits : Nat) :
    sharedName? (Origin.memory bits).locator = some (Text.encode (Target.nameOfBits bits)) := by
  unfold sharedName? locator
  rw [Target.nulByte?_memoryLocator, Target.ofPath_memoryLocator]
  rfl

/-- The data of a name is shared by those that ask for that name. -/
theorem meets_of_shared (shared : sharedName? origin.locator = some name) :
    origin.meets other = true ↔ sharedName? other.locator = some name := by
  unfold meets
  rw [shared]
  simp only [Bool.or_eq_true, decide_eq_true_eq, Option.isSome_some, Bool.true_and]
  constructor
  · rintro (rfl | same)
    · exact shared
    · exact same.symm
  · exact fun same => .inr same.symm

/-- Stores in memory are the same if their names are. -/
theorem memory_meets_memory_iff {bits otherBits : Nat} :
    (memory bits).meets (.memory otherBits) = true ↔
      Target.nameOfBits bits = Target.nameOfBits otherBits := by
  rw [meets_of_shared (sharedName?_memory bits), sharedName?_memory, Option.some.injEq,
    Text.encode_inj]
  exact eq_comm

/-- What is not shared under a name is led to by one origin only. -/
theorem meets_of_unshared (unshared : sharedName? origin.locator = none) :
    origin.meets other = true ↔ origin = other := by
  unfold meets
  rw [unshared]
  simp

end Origin

end MessageStore

import UsbEthernet.Usb.Descriptor

/-! How a host reads a configuration. It steps from one descriptor to the next by their lengths and
picks out the kinds that it knows. As long as the numbers fit their fields, it finds the settings
that have been written. -/
namespace UsbEthernet

/-- A descriptor of any kind. -/
structure RawDescriptor where
  kind : UInt8
  body : Bytes
deriving DecidableEq

namespace RawDescriptor

def toBytes (d : RawDescriptor) : Bytes :=
  descriptor d.kind d.body

/-- The length of the whole fits the octet that holds it. -/
def Fits (d : RawDescriptor) : Prop :=
  d.body.length ≤ 253

end RawDescriptor

/-- Steps from one descriptor to the next. There is no result where one is too short to hold its
length and kind, or goes beyond the end. -/
def walk? : Bytes → Option (List RawDescriptor)
  | [] => some []
  | [_] => none
  | length :: kind :: rest =>
    if 2 ≤ length.toNat ∧ length.toNat ≤ rest.length + 2 then
      (walk? (rest.drop (length.toNat - 2))).map
        (⟨kind, rest.take (length.toNat - 2)⟩ :: ·)
    else none
termination_by bytes => bytes.length
decreasing_by
  simp only [List.length_drop, List.length_cons]
  omega

theorem walk?_nil : walk? [] = some [] := by
  rw [walk?]

theorem walk?_cons {d : RawDescriptor} (fits : d.Fits) (rest : Bytes) :
    walk? (d.toBytes ++ rest) = (walk? rest).map (d :: ·) := by
  have length : (UInt8.ofNat (d.body.length + 2)).toNat = d.body.length + 2 := by
    unfold RawDescriptor.Fits at fits
    rw [UInt8.toNat_ofNat']
    omega
  rw [RawDescriptor.toBytes, descriptor, List.cons_append, List.cons_append, walk?, length]
  simp

theorem walk?_flatMap {ds : List RawDescriptor} (fits : ∀ d ∈ ds, d.Fits) :
    walk? (ds.flatMap RawDescriptor.toBytes) = some ds := by
  induction ds with
  | nil => exact walk?_nil
  | cons d ds ih =>
    obtain ⟨first, rest⟩ := List.forall_mem_cons.mp fits
    rw [List.flatMap_cons, walk?_cons first, ih rest]
    rfl

/-- The number in two octets, of which the lower is first. -/
def word (low high : UInt8) : Nat :=
  low.toNat + 256 * high.toNat

theorem word_littleEndian {n : Nat} (fits : n < 65536) :
    word (UInt8.ofNat (n % 256)) (UInt8.ofNat (n / 256)) = n := by
  rw [word, UInt8.toNat_ofNat', UInt8.toNat_ofNat']
  omega

/-- The length that a configuration gives for all of its descriptors. -/
def totalLength? : List RawDescriptor → Option Nat
  | ⟨0x02, low :: high :: _⟩ :: _ => some (word low high)
  | _ => none

/-- A setting as it is read: the numbers of its interface and of itself, and how many endpoints it
says that it has. -/
structure ReadSetting where
  interface : Nat
  number : Nat
  count : Nat
  setting : AltSetting
deriving DecidableEq

namespace RawDescriptor

def functional? (d : RawDescriptor) : Option Bytes :=
  if d.kind = 0x24 then some d.body else none

def endpoint? (d : RawDescriptor) : Option Endpoint :=
  match d with
  | ⟨0x05, [address, 2, low, high, interval]⟩ => some ⟨address, .bulk, word low high, interval⟩
  | ⟨0x05, [address, 3, low, high, interval]⟩ =>
    some ⟨address, .interrupt, word low high, interval⟩
  | _ => none

/-- Whether the descriptor belongs to the setting before it. -/
def isOwn (d : RawDescriptor) : Bool :=
  d.kind == 0x24 || d.kind == 0x05

/-- The setting that the descriptor begins, with the descriptors of its own. -/
def setting? (d : RawDescriptor) (own : List RawDescriptor) : Option ReadSetting :=
  match d with
  | ⟨0x04, [interface, number, count, base, sub, protocol, text]⟩ =>
    some {
      interface := interface.toNat
      number := number.toNat
      count := count.toNat
      setting := {
        code := ⟨base, sub, protocol⟩
        text := text.toNat
        functional := own.filterMap functional?
        endpoints := own.filterMap endpoint? } }
  | _ => none

end RawDescriptor

/-- All settings, each with the class descriptors and endpoints that follow it. -/
def readSettings : List RawDescriptor → List ReadSetting
  | [] => []
  | d :: ds => (d.setting? (ds.takeWhile RawDescriptor.isOwn)).toList ++ readSettings ds

/-! The descriptors of a configuration before they are written. -/

def Endpoint.raw (e : Endpoint) : RawDescriptor :=
  ⟨0x05, [e.address, e.type.code] ++ Bytes.littleEndian e.maxPacket ++ [e.interval]⟩

namespace AltSetting

def own (a : AltSetting) : List RawDescriptor :=
  a.functional.map (⟨0x24, ·⟩) ++ a.endpoints.map Endpoint.raw

def raw (interface number : Nat) (a : AltSetting) : List RawDescriptor :=
  ⟨0x04, [UInt8.ofNat interface, UInt8.ofNat number, UInt8.ofNat a.endpoints.length] ++
    a.code.toBytes ++ [UInt8.ofNat a.text]⟩ :: a.own

/-- The numbers that are written for the setting fit their fields. -/
structure Fits (a : AltSetting) : Prop where
  text : a.text < 256
  functional : ∀ body ∈ a.functional, body.length ≤ 253
  endpoints : a.endpoints.length < 256
  maxPacket : ∀ e ∈ a.endpoints, e.maxPacket < 65536

end AltSetting

def Interface.raw (i : Interface) : List RawDescriptor :=
  i.settings.zipIdx.flatMap fun (setting, number) => setting.raw i.number number

/-- The settings of the interface, as a host should find them. -/
def Interface.found (i : Interface) : List ReadSetting :=
  i.settings.zipIdx.map fun (setting, number) =>
    ⟨i.number, number, setting.endpoints.length, setting⟩

structure Interface.Fits (i : Interface) : Prop where
  number : i.number < 256
  settings : i.settings.length ≤ 256
  each : ∀ a ∈ i.settings, a.Fits

def Function.raw (f : Function) : List RawDescriptor :=
  ⟨0x0b, [UInt8.ofNat f.first, UInt8.ofNat f.interfaces.length] ++ f.code.toBytes ++ [0]⟩ ::
    f.interfaces.flatMap Interface.raw

namespace Configuration

def raw (c : Configuration) : List RawDescriptor :=
  ⟨0x02, Bytes.littleEndian c.toBytes.length ++
    [UInt8.ofNat c.interfaces.length, 1, 0, 0x80, 0x32]⟩ ::
    c.functions.flatMap Function.raw

def found (c : Configuration) : List ReadSetting :=
  c.interfaces.flatMap Interface.found

structure Fits (c : Configuration) : Prop where
  total : c.toBytes.length < 65536
  interfaces : ∀ i ∈ c.interfaces, i.Fits

end Configuration

/-! What is written are these descriptors. -/

theorem AltSetting.toBytes_eq (interface number : Nat) (a : AltSetting) :
    a.toBytes interface number = (a.raw interface number).flatMap RawDescriptor.toBytes := by
  rw [raw, own, List.flatMap_cons, List.flatMap_append, List.flatMap_map, List.flatMap_map,
    ← List.append_assoc]
  rfl

theorem Interface.toBytes_eq (i : Interface) :
    i.toBytes = i.raw.flatMap RawDescriptor.toBytes := by
  rw [toBytes, raw, List.flatMap_assoc]
  exact congrArg (List.flatMap · _) (funext fun p => p.1.toBytes_eq i.number p.2)

theorem Function.toBytes_eq (f : Function) : f.toBytes = f.raw.flatMap RawDescriptor.toBytes := by
  rw [toBytes, raw, List.flatMap_cons, List.flatMap_assoc, funext Interface.toBytes_eq]
  rfl

theorem Configuration.length_toBytes (c : Configuration) :
    c.toBytes.length = 9 + (c.functions.flatMap Function.toBytes).length := by
  rw [toBytes, List.length_append]
  rfl

theorem Configuration.toBytes_eq (c : Configuration) :
    c.toBytes = c.raw.flatMap RawDescriptor.toBytes := by
  rw [raw, List.flatMap_cons, List.flatMap_assoc, length_toBytes, toBytes,
    funext Function.toBytes_eq]
  rfl

theorem AltSetting.raw_fits {a : AltSetting} (fits : a.Fits) (interface number : Nat) :
    ∀ d ∈ a.raw interface number, d.Fits := by
  rw [raw, List.forall_mem_cons, own, List.forall_mem_append, List.forall_mem_map,
    List.forall_mem_map]
  refine ⟨?_, fits.functional, ?_⟩
  · change 7 ≤ 253
    decide
  · intro e _
    change 5 ≤ 253
    decide

theorem Interface.raw_fits {i : Interface} (fits : i.Fits) : ∀ d ∈ i.raw, d.Fits := by
  intro d mem
  obtain ⟨p, placed, own⟩ := List.mem_flatMap.mp mem
  have setting : p.1 ∈ i.settings := List.fst_mem_of_mem_zipIdx placed
  exact AltSetting.raw_fits (fits.each _ setting) i.number p.2 d own

theorem Function.raw_fits {f : Function} (fits : ∀ i ∈ f.interfaces, i.Fits) :
    ∀ d ∈ f.raw, d.Fits := by
  rw [raw, List.forall_mem_cons]
  constructor
  · change 6 ≤ 253
    decide
  · intro d mem
    obtain ⟨i, interface, own⟩ := List.mem_flatMap.mp mem
    exact Interface.raw_fits (fits i interface) d own

theorem Configuration.raw_fits {c : Configuration} (fits : c.Fits) : ∀ d ∈ c.raw, d.Fits := by
  rw [raw, List.forall_mem_cons]
  constructor
  · change 7 ≤ 253
    decide
  · intro d mem
    obtain ⟨f, function, own⟩ := List.mem_flatMap.mp mem
    refine Function.raw_fits ?_ d own
    intro i interface
    exact fits.interfaces i (List.mem_flatMap.mpr ⟨f, function, interface⟩)

/-! Reading them back. -/

theorem Endpoint.endpoint?_raw {e : Endpoint} (fits : e.maxPacket < 65536) :
    e.raw.endpoint? = some e := by
  obtain ⟨address, type, maxPacket, interval⟩ := e
  have read : word _ _ = maxPacket := word_littleEndian fits
  cases type with
  | bulk => exact congrArg (fun n => some (Endpoint.mk address .bulk n interval)) read
  | interrupt => exact congrArg (fun n => some (Endpoint.mk address .interrupt n interval)) read

theorem Endpoint.filterMap_raw {es : List Endpoint} (fits : ∀ e ∈ es, e.maxPacket < 65536) :
    (es.map raw).filterMap RawDescriptor.endpoint? = es := by
  induction es with
  | nil => rfl
  | cons e es ih =>
    obtain ⟨first, rest⟩ := List.forall_mem_cons.mp fits
    rw [List.map_cons, List.filterMap_cons_some (endpoint?_raw first), ih rest]

namespace AltSetting

theorem own_isOwn (a : AltSetting) : ∀ d ∈ a.own, d.isOwn = true := by
  intro d mem
  rcases List.mem_append.mp mem with mem | mem
  · obtain ⟨_, -, rfl⟩ := List.mem_map.mp mem
    rfl
  · obtain ⟨_, -, rfl⟩ := List.mem_map.mp mem
    rfl

theorem own_functional (a : AltSetting) :
    a.own.filterMap RawDescriptor.functional? = a.functional := by
  have others : (a.endpoints.map Endpoint.raw).filterMap RawDescriptor.functional? = [] := by
    simp [RawDescriptor.functional?, Endpoint.raw]
  rw [own, List.filterMap_append, others, List.append_nil, List.filterMap_map]
  exact List.filterMap_some

theorem own_endpoints {a : AltSetting} (fits : a.Fits) :
    a.own.filterMap RawDescriptor.endpoint? = a.endpoints := by
  have others : (a.functional.map (⟨0x24, ·⟩)).filterMap RawDescriptor.endpoint? = [] := by
    simp [RawDescriptor.endpoint?]
  rw [own, List.filterMap_append, others, List.nil_append, Endpoint.filterMap_raw fits.maxPacket]

end AltSetting

/-- What follows a setting does not continue it. -/
def Ends (ds : List RawDescriptor) : Prop :=
  ds.takeWhile RawDescriptor.isOwn = []

theorem RawDescriptor.setting?_isOwn {d : RawDescriptor} (own : d.isOwn = true)
    (others : List RawDescriptor) : d.setting? others = none := by
  obtain ⟨kind, body⟩ := d
  unfold setting?
  split
  · rename_i begins
    cases begins
    cases own
  · rfl

theorem readSettings_own {ds : List RawDescriptor} (own : ∀ d ∈ ds, d.isOwn = true)
    (rest : List RawDescriptor) : readSettings (ds ++ rest) = readSettings rest := by
  induction ds with
  | nil => rfl
  | cons d ds ih =>
    obtain ⟨first, later⟩ := List.forall_mem_cons.mp own
    rw [List.cons_append, readSettings, ih later, RawDescriptor.setting?_isOwn first]
    rfl

theorem AltSetting.readSettings_raw {a : AltSetting} (fits : a.Fits) {interface number : Nat}
    (interface_fits : interface < 256) (number_fits : number < 256) {rest : List RawDescriptor}
    (ends : Ends rest) :
    readSettings (a.raw interface number ++ rest) =
      ⟨interface, number, a.endpoints.length, a⟩ :: readSettings rest := by
  have taken : (a.own ++ rest).takeWhile RawDescriptor.isOwn = a.own := by
    rw [List.takeWhile_append_of_pos a.own_isOwn, ends, List.append_nil]
  have small {n : Nat} (fits : n < 256) : (UInt8.ofNat n).toNat = n := by
    rw [UInt8.toNat_ofNat']
    omega
  rw [raw, List.cons_append, readSettings, taken, readSettings_own a.own_isOwn]
  simp [RawDescriptor.setting?, ClassCode.toBytes, own_functional, own_endpoints fits,
    small interface_fits, small number_fits, small fits.endpoints, small fits.text]

theorem AltSetting.ends_raw (a : AltSetting) (interface number : Nat) (rest : List RawDescriptor) :
    Ends (a.raw interface number ++ rest) := rfl

/-- Some of the settings of an interface, each with its number. -/
theorem readSettings_settings {interface : Nat} (interface_fits : interface < 256)
    {settings : List (AltSetting × Nat)} (fits : ∀ p ∈ settings, p.1.Fits ∧ p.2 < 256)
    {rest : List RawDescriptor} (ends : Ends rest) :
    Ends ((settings.flatMap fun p => p.1.raw interface p.2) ++ rest) ∧
      readSettings ((settings.flatMap fun p => p.1.raw interface p.2) ++ rest) =
        (settings.map fun p => ⟨interface, p.2, p.1.endpoints.length, p.1⟩) ++
          readSettings rest := by
  induction settings with
  | nil => exact ⟨ends, rfl⟩
  | cons p settings ih =>
    obtain ⟨⟨fit, number⟩, fits⟩ := List.forall_mem_cons.mp fits
    obtain ⟨ends, read⟩ := ih fits
    rw [List.flatMap_cons, List.append_assoc]
    constructor
    · exact p.1.ends_raw ..
    · rw [AltSetting.readSettings_raw fit interface_fits number ends, read]
      rfl

theorem Interface.readSettings_raw {interfaces : List Interface} (fits : ∀ i ∈ interfaces, i.Fits)
    {rest : List RawDescriptor} (ends : Ends rest) :
    Ends (interfaces.flatMap raw ++ rest) ∧
      readSettings (interfaces.flatMap raw ++ rest) =
        interfaces.flatMap found ++ readSettings rest := by
  induction interfaces with
  | nil => exact ⟨ends, rfl⟩
  | cons i interfaces ih =>
    obtain ⟨fit, fits⟩ := List.forall_mem_cons.mp fits
    obtain ⟨ends, read⟩ := ih fits
    have each : ∀ p ∈ i.settings.zipIdx, p.1.Fits ∧ p.2 < 256 := by
      intro p mem
      obtain ⟨-, number, at_number⟩ := List.mem_zipIdx mem
      have count := fit.settings
      constructor
      · rw [at_number]
        exact fit.each _ (List.getElem_mem _)
      · omega
    obtain ⟨ends, own⟩ := readSettings_settings fit.number each ends
    rw [List.flatMap_cons, List.append_assoc]
    constructor
    · exact ends
    · rw [List.flatMap_cons, List.append_assoc, ← read]
      exact own

theorem Function.readSettings_raw {functions : List Function}
    (fits : ∀ i ∈ functions.flatMap interfaces, i.Fits) :
    Ends (functions.flatMap raw) ∧
      readSettings (functions.flatMap raw) =
        (functions.flatMap interfaces).flatMap Interface.found := by
  induction functions with
  | nil => exact ⟨rfl, rfl⟩
  | cons f functions ih =>
    rw [List.flatMap_cons, List.forall_mem_append] at fits
    obtain ⟨ends, read⟩ := ih fits.2
    obtain ⟨-, own⟩ := Interface.readSettings_raw fits.1 ends
    rw [List.flatMap_cons, List.flatMap_cons, List.flatMap_append, ← read, ← own]
    exact ⟨rfl, rfl⟩

/-- A host that steps by lengths ends with the last descriptor, has gone as far as the first one
said, and has found every setting as it was written. -/
theorem Configuration.readSettings_walk {c : Configuration} (fits : c.Fits) :
    ∃ ds, walk? c.toBytes = some ds ∧ totalLength? ds = some c.toBytes.length ∧
      readSettings ds = c.found := by
  refine ⟨c.raw, ?_, ?_, ?_⟩
  · rw [toBytes_eq]
    exact walk?_flatMap (raw_fits fits)
  · exact congrArg some (word_littleEndian fits.total)
  · exact (Function.readSettings_raw fits.interfaces).2

/-- Characters in UTF-16, as far as they are within the basic plane. -/
def utf16? : Bytes → Option (List Char)
  | [] => some []
  | [_] => none
  | low :: high :: rest =>
    if (word low high).isValidChar then (utf16? rest).map (Char.ofNat (word low high) :: ·)
    else none

/-- The text of a string descriptor. -/
def readString? (bytes : Bytes) : Option String :=
  match walk? bytes with
  | some [⟨0x03, body⟩] => (utf16? body).map String.ofList
  | _ => none

theorem utf16?_flatMap {cs : List Char} (basic : ∀ c ∈ cs, c.toNat < 65536) :
    utf16? (cs.flatMap fun c => Bytes.littleEndian c.toNat) = some cs := by
  induction cs with
  | nil => rfl
  | cons c cs ih =>
    obtain ⟨first, rest⟩ := List.forall_mem_cons.mp basic
    have valid : (c.toNat).isValidChar := c.valid
    rw [List.flatMap_cons, Bytes.littleEndian, List.cons_append, List.cons_append, List.nil_append,
      utf16?, word_littleEndian first, if_pos valid, ih rest, Char.ofNat_toNat]
    rfl

theorem length_flatMap_littleEndian (cs : List Char) :
    (cs.flatMap fun c => Bytes.littleEndian c.toNat).length = 2 * cs.length := by
  induction cs with
  | nil => rfl
  | cons c cs ih =>
    rw [List.flatMap_cons, List.length_append, ih, List.length_cons, Nat.mul_succ, Nat.add_comm]
    rfl

theorem readString?_stringDescriptor {text : String} (short : text.toList.length ≤ 126)
    (basic : ∀ c ∈ text.toList, c.toNat < 65536) :
    readString? (stringDescriptor text) = some text := by
  have fits : RawDescriptor.Fits
      ⟨0x03, text.toList.flatMap fun c => Bytes.littleEndian c.toNat⟩ := by
    rw [RawDescriptor.Fits, length_flatMap_littleEndian]
    omega
  have walked := walk?_cons fits []
  rw [List.append_nil, walk?_nil] at walked
  have read : walk? (stringDescriptor text) = _ := walked
  rw [readString?, read, Option.map_some]
  simp only [utf16?_flatMap basic, Option.map_some, String.ofList_toList]

end UsbEthernet

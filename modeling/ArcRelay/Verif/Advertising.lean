import ArcRelay.Advertising
import ArcRelay.Verif.Merging

/-!
# Service records are read as they were written

A device that resolves the service of another reads from it the identity, the
metadata, the port and the certificate digest that the other put there. Whatever a
service says, what is read from it names a device that its key is bound to, a port,
and sorted addresses that can be reached from elsewhere.
-/

namespace ArcRelay

/-! ## Numbers and bytes as text -/

/-- A number below the bound survives its text. -/
theorem parseNumber_toString {bound number : Nat} (small : number < bound) :
    parseNumber bound (toString number) = some number := by
  have text : (toString number).toList = Nat.toDigits 10 number := Nat.toList_repr
  have digits : ∀ digit ∈ Nat.toDigits 10 number, digit.isDigit = true := fun _ member =>
    Nat.isDigit_of_mem_toDigits (by decide) (by decide) member
  have unsigned : (Nat.toDigits 10 number).head? ≠ some '+' := fun plus =>
    absurd (digits '+' (List.mem_of_head? plus)) (by decide)
  have value : (Nat.toDigits 10 number).foldl
      (fun value digit => 10 * value + (digit.toNat - 48)) 0 = number :=
    Nat.ofDigitChars_ten_toDigits
  simp only [parseNumber, text, if_neg unsigned, value, if_pos small]
  exact if_pos ⟨Nat.toDigits_ne_nil, List.all_eq_true.mpr digits⟩

variable {text : String}

theorem parseNumber_lt {bound number : Nat} (parsed : parseNumber bound text = some number) :
    number < bound := by
  simp only [parseNumber, Option.ite_none_right_eq_some] at parsed
  obtain ⟨-, small, value⟩ := parsed
  exact Option.some.inj value ▸ small

/-- What the loop of `ByteArray.toList` collects. -/
theorem toList_loop (bytes : ByteArray) (rest : Nat) :
    ∀ (index : Nat) (taken : List UInt8), bytes.size - index = rest →
      ByteArray.toList.loop bytes index taken = taken.reverse ++ bytes.data.toList.drop index := by
  have length : bytes.data.toList.length = bytes.size := by
    rw [Array.length_toList, ByteArray.size_data]
  induction rest with
  | zero =>
    intro index taken left
    have done : ¬ index < bytes.size := by omega
    rw [ByteArray.toList.loop, if_neg done, List.drop_eq_nil_of_le (by omega), List.append_nil]
  | succ rest induction =>
    intro index taken left
    have more : index < bytes.size := by omega
    have bound : index < bytes.data.toList.length := by omega
    have same : bytes.get! index = bytes.data.toList[index] := getElem!_pos bytes.data index more
    rw [ByteArray.toList.loop, if_pos more, induction _ _ (by omega),
      List.drop_eq_getElem_cons bound, same, List.reverse_cons, List.append_assoc,
      List.singleton_append]

theorem toList_toByteArray (bytes : List UInt8) : bytes.toByteArray.toList = bytes := by
  rw [ByteArray.toList, toList_loop _ _ 0 [] rfl, List.toList_data_toByteArray]
  rfl

theorem utf8EncodeChar_hexDigit {value : Nat} (small : value < 16) :
    ∃ digit, String.utf8EncodeChar (hexDigit value) = [digit] ∧ hexValue digit = some value ∧
      digit ≠ 43 := by
  interval_cases value <;> exact ⟨_, rfl, by decide, by decide⟩

/-- The pairs of hexadecimal digits of bytes read back. -/
theorem unhexPairs_digits (bytes : Bytes) :
    unhexPairs ((bytes.flatMap fun byte =>
      [hexDigit (byte.toNat / 16), hexDigit (byte.toNat % 16)]).flatMap String.utf8EncodeChar) =
        some bytes ∧
    ((bytes.flatMap fun byte => [hexDigit (byte.toNat / 16), hexDigit (byte.toNat % 16)]).flatMap
      String.utf8EncodeChar).length % 2 = 0 := by
  induction bytes with
  | nil => exact ⟨rfl, rfl⟩
  | cons byte bytes induction =>
    have small := byte.toNat_lt
    obtain ⟨high, highText, highValue, unsigned⟩ :=
      utf8EncodeChar_hexDigit (show byte.toNat / 16 < 16 by omega)
    obtain ⟨low, lowText, lowValue, -⟩ :=
      utf8EncodeChar_hexDigit (show byte.toNat % 16 < 16 by omega)
    have whole : UInt8.ofNat (16 * (byte.toNat / 16) + byte.toNat % 16) = byte := by
      rw [Nat.div_add_mod, UInt8.ofNat_toNat]
    simp only [List.flatMap_cons, List.nil_append, highText, lowText, List.cons_append, unhexPairs,
      parseHexPair, if_neg unsigned, highValue, lowValue, induction.1, List.length_cons,
      Option.bind_eq_bind, Option.bind_some, Option.pure_def, whole, true_and]
    omega

theorem toUTF8_toList (text : String) :
    text.toUTF8.toList = text.toList.flatMap String.utf8EncodeChar := by
  conv_lhs => rw [← String.ofList_toList (s := text)]
  rw [String.toUTF8, String.toByteArray_ofList, List.utf8Encode, toList_toByteArray]

theorem unhex_hex (bytes : Bytes) : unhex (hex bytes) = some bytes := by
  obtain ⟨pairs, even⟩ := unhexPairs_digits bytes
  rw [unhex, toUTF8_toList, hex, String.toList_ofList, if_pos even, pairs]

/-! ## The texts that are read as bytes -/

/-- The characters `0-9`, `a-f` and `A-F`. -/
def hexCharacters : List Char :=
  ['0', '1', '2', '3', '4', '5', '6', '7', '8', '9', 'a', 'b', 'c', 'd', 'e', 'f',
    'A', 'B', 'C', 'D', 'E', 'F']

/-- The character of an ASCII byte. -/
def asciiChar (byte : UInt8) : Char := Char.ofNat byte.toNat

/-- A byte with a hexadecimal value is the code of a hexadecimal character, and the digit of the
value is this character in lower case. -/
theorem hexValue_eq_some {byte : UInt8} {value : Nat} (found : hexValue byte = some value) :
    value < 16 ∧ hexDigit value = (asciiChar byte).toLower ∧ asciiChar byte ∈ hexCharacters ∧
      byte.toNat < 128 ∧ byte ≠ 43 := by
  have codes : ∀ code : Fin 256, ∀ value ∈ hexValue (.ofNat code),
      value < 16 ∧ hexDigit value = (Char.ofNat code).toLower ∧
        Char.ofNat code ∈ hexCharacters ∧ code.val < 128 ∧ UInt8.ofNat code ≠ 43 := by
    decide +kernel
  have code := codes ⟨byte.toNat, byte.toNat_lt⟩ value
  rw [UInt8.ofNat_toNat] at code
  exact code found

/-- A hexadecimal character is one byte, and this byte has a value. -/
theorem utf8EncodeChar_hexCharacters : ∀ character ∈ hexCharacters,
    String.utf8EncodeChar character = [.ofNat character.toNat] ∧
      (hexValue (.ofNat character.toNat)).isSome := by
  have codes : hexCharacters.all (fun character => character.toNat ≤ 127 &&
      (hexValue (.ofNat character.toNat)).isSome) = true := by decide
  intro character member
  have code := List.all_eq_true.mp codes character member
  rw [Bool.and_eq_true, decide_eq_true_eq] at code
  exact ⟨if_pos code.1, code.2⟩

/-- A character whose bytes are all ASCII is one byte. -/
theorem utf8EncodeChar_of_ascii {character : Char}
    (small : ∀ byte ∈ String.utf8EncodeChar character, byte.toNat < 128) :
    String.utf8EncodeChar character = [.ofNat character.toNat] ∧ character.toNat < 128 := by
  by_cases ascii : character.val.toNat ≤ 127
  · exact ⟨if_pos ascii, Nat.lt_succ_of_le ascii⟩
  · -- The first of several bytes is at least 192.
    exfalso
    simp only [String.utf8EncodeChar, ascii, if_false] at small
    split at small
    · have first := small _ List.mem_cons_self
      rw [UInt8.toNat_ofNat'] at first
      omega
    · split at small
      · have first := small _ List.mem_cons_self
        rw [UInt8.toNat_ofNat'] at first
        omega
      · have first := small _ List.mem_cons_self
        rw [UInt8.toNat_ofNat'] at first
        omega

/-- Characters whose bytes are all ASCII are the characters of these bytes. -/
theorem map_asciiChar {characters : List Char}
    (small : ∀ byte ∈ characters.flatMap String.utf8EncodeChar, byte.toNat < 128) :
    (characters.flatMap String.utf8EncodeChar).map asciiChar = characters := by
  induction characters with
  | nil => rfl
  | cons character characters induction =>
    simp only [List.flatMap_cons, List.mem_append] at small
    obtain ⟨single, ascii⟩ := utf8EncodeChar_of_ascii fun byte member => small byte (.inl member)
    have same : asciiChar (.ofNat character.toNat) = character := by
      have whole : (UInt8.ofNat character.toNat).toNat = character.toNat := by
        rw [UInt8.toNat_ofNat']
        omega
      rw [asciiChar, whole, Char.ofNat_toNat]
    rw [List.flatMap_cons, single, List.singleton_append, List.map_cons, same,
      induction fun byte member => small byte (.inr member)]

/-- The pairs of bytes that `unhex` reads one after the other. -/
def bytePairs : Bytes → List (UInt8 × UInt8)
  | first :: second :: rest => (first, second) :: bytePairs rest
  | _ => []

/-- `u8::from_str_radix` reads a pair: two digits, or a plus sign and a digit. -/
def ReadablePair (pair : UInt8 × UInt8) : Prop :=
  ((hexValue pair.1).isSome ∨ pair.1 = 43) ∧ (hexValue pair.2).isSome

/-- The bytes are read although they are no digits: their number is even, every pair is two digits
or a plus sign and a digit, and some pair has the plus sign. -/
structure Signed (bytes : Bytes) : Prop where
  even : bytes.length % 2 = 0
  readable : ∀ pair ∈ bytePairs bytes, ReadablePair pair
  plus : ∃ pair ∈ bytePairs bytes, pair.1 = 43

theorem mem_of_mem_bytePairs {bytes : Bytes} {pair : UInt8 × UInt8}
    (member : pair ∈ bytePairs bytes) : pair.1 ∈ bytes ∧ pair.2 ∈ bytes := by
  induction bytes using bytePairs.induct with
  | case1 first second rest induction =>
    rw [bytePairs, List.mem_cons] at member
    rcases member with rfl | later
    · simp
    · have inside := induction later
      simp [inside]
  | case2 bytes short =>
    rw [bytePairs.eq_2 bytes short] at member
    cases member

/-- One pair is read exactly if it is two digits, or a plus sign and a digit. -/
theorem parseHexPair_isSome (first second : UInt8) :
    (parseHexPair first second).isSome ↔ ReadablePair (first, second) := by
  simp only [parseHexPair, ReadablePair]
  split
  · rename_i plus
    simp [plus]
  · rename_i positive
    cases hexValue first <;> cases hexValue second <;> simp [positive]

theorem unhexPairs_isSome (bytes : Bytes) :
    (∃ decoded, unhexPairs bytes = some decoded) ↔
      ∀ pair ∈ bytePairs bytes, ReadablePair pair := by
  induction bytes using unhexPairs.induct with
  | case1 first second rest induction =>
    rw [bytePairs, List.forall_mem_cons, ← parseHexPair_isSome, ← induction, unhexPairs]
    cases parseHexPair first second <;> cases unhexPairs rest <;> simp
  | case2 => simp [unhexPairs, bytePairs]
  | case3 single => simp [unhexPairs, bytePairs]

/-- Pairs without a plus sign that are read are hexadecimal, and the digits of what is read are the
same in lower case. -/
theorem digits_of_unhexPairs {bytes decoded : Bytes} (even : bytes.length % 2 = 0)
    (unsigned : ∀ pair ∈ bytePairs bytes, pair.1 ≠ 43) (read : unhexPairs bytes = some decoded) :
    (∀ byte ∈ bytes, (hexValue byte).isSome) ∧
      (decoded.flatMap fun byte => [hexDigit (byte.toNat / 16), hexDigit (byte.toNat % 16)]) =
        bytes.map fun byte => (asciiChar byte).toLower := by
  induction bytes using unhexPairs.induct generalizing decoded with
  | case1 first second rest induction =>
    rw [bytePairs, List.forall_mem_cons] at unsigned
    simp only [unhexPairs, parseHexPair, if_neg unsigned.1, Option.bind_eq_bind,
      Option.bind_eq_some_iff, Option.pure_def, Option.some.injEq] at read
    obtain ⟨byte, ⟨high, highValue, low, lowValue, rfl⟩, bytes, readRest, rfl⟩ := read
    obtain ⟨valid, digits⟩ := induction
      (by simp only [List.length_cons] at even; omega) unsigned.2 readRest
    obtain ⟨highSmall, highDigit, -⟩ := hexValue_eq_some highValue
    obtain ⟨lowSmall, lowDigit, -⟩ := hexValue_eq_some lowValue
    have value : (UInt8.ofNat (16 * high + low)).toNat = 16 * high + low := by
      rw [UInt8.toNat_ofNat']
      omega
    have highPart : (16 * high + low) / 16 = high := by omega
    have lowPart : (16 * high + low) % 16 = low := by omega
    constructor
    · intro byte member
      simp only [List.mem_cons] at member
      rcases member with rfl | rfl | inside
      · rw [highValue]; rfl
      · rw [lowValue]; rfl
      · exact valid byte inside
    · simp only [List.flatMap_cons, List.map_cons, value, highPart, lowPart, highDigit, lowDigit,
        digits, List.cons_append, List.nil_append]
  | case2 =>
    cases read
    exact ⟨fun _ absent => absurd absent List.not_mem_nil, rfl⟩
  | case3 single => exact absurd even (by simp)

/-- The bytes of a text of hexadecimal characters are as many, and all have a value. -/
theorem valid_of_hexCharacters (digits : ∀ character ∈ text.toList, character ∈ hexCharacters) :
    text.toUTF8.toList.length = text.length ∧
      ∀ byte ∈ text.toUTF8.toList, (hexValue byte).isSome := by
  have encoded : text.toUTF8.toList =
      text.toList.map fun character => UInt8.ofNat character.toNat := by
    rw [toUTF8_toList, List.flatMap_congr fun character member =>
      (utf8EncodeChar_hexCharacters character (digits character member)).1,
      List.map_eq_flatMap]
  constructor
  · rw [encoded, List.length_map, String.length_toList]
  · intro byte member
    rw [encoded] at member
    obtain ⟨character, inside, rfl⟩ := List.mem_map.mp member
    exact (utf8EncodeChar_hexCharacters character (digits character inside)).2

/-- A text whose bytes all have a value is the characters of these bytes. -/
theorem characters_of_valid (valid : ∀ byte ∈ text.toUTF8.toList, (hexValue byte).isSome) :
    text.toUTF8.toList.map asciiChar = text.toList := by
  rw [toUTF8_toList] at valid ⊢
  apply map_asciiChar
  intro byte member
  obtain ⟨value, found⟩ := Option.isSome_iff_exists.mp (valid byte member)
  exact (hexValue_eq_some found).2.2.2.1

/-- The text has one reading: it is read exactly if it is an even number of hexadecimal digits, and
what is read then has this text, in lower case. -/
structure OneGrammar (text : String) : Prop where
  /-- Exactly the hexadecimal texts of even length are read. -/
  accepted : (∃ bytes, unhex text = some bytes) ↔
    text.length % 2 = 0 ∧ ∀ character ∈ text.toList, character ∈ hexCharacters
  text_of_read : ∀ bytes, unhex text = some bytes → hex bytes = text.toLower

/-- A text that is read, without a plus sign in front of a digit, has one reading. -/
theorem hexadecimal_of_unhex {bytes : Bytes} (read : unhex text = some bytes)
    (unsigned : ¬ Signed text.toUTF8.toList) :
    (text.length % 2 = 0 ∧ ∀ character ∈ text.toList, character ∈ hexCharacters) ∧
      hex bytes = text.toLower := by
  simp only [unhex, Option.ite_none_right_eq_some] at read
  obtain ⟨even, pairs⟩ := read
  have readable := (unhexPairs_isSome _).mp ⟨bytes, pairs⟩
  obtain ⟨valid, digits⟩ := digits_of_unhexPairs even
    (fun pair member plus => unsigned ⟨even, readable, pair, member, plus⟩) pairs
  have characters := characters_of_valid valid
  refine ⟨⟨?_, fun character member => ?_⟩, String.toList_inj.mp ?_⟩
  · rw [← String.length_toList, ← characters, List.length_map]
    exact even
  · rw [← characters] at member
    obtain ⟨byte, inside, rfl⟩ := List.mem_map.mp member
    obtain ⟨value, known⟩ := Option.isSome_iff_exists.mp (valid byte inside)
    exact (hexValue_eq_some known).2.2.1
  · rw [hex, String.toList_ofList, digits, String.toLower, String.toList_map, ← characters,
      List.map_map]
    rfl

/-- Bytes survive their text. A text has one reading exactly unless it is an even number of bytes in
pairs of two digits or of a plus sign and a digit, with a plus sign in some pair. -/
theorem unhex_grammar (stored : Bytes) (text : String) :
    unhex (hex stored) = some stored ∧ (OneGrammar text ↔ ¬ Signed text.toUTF8.toList) := by
  refine ⟨unhex_hex stored, ?_, fun unsigned => ⟨⟨?_, ?_⟩, ?_⟩⟩
  · rintro ⟨accepted, -⟩ ⟨even, readable, pair, member, plus⟩
    -- Such a text is read, but the plus sign is no digit.
    obtain ⟨bytes, pairs⟩ := (unhexPairs_isSome _).mpr readable
    have digits := (accepted.mp ⟨bytes, by rw [unhex, if_pos even, pairs]⟩).2
    have valid := (valid_of_hexCharacters digits).2 _ (mem_of_mem_bytePairs member).1
    rw [plus] at valid
    exact absurd valid (by decide)
  · rintro ⟨bytes, read⟩
    exact (hexadecimal_of_unhex read unsigned).1
  · rintro ⟨even, digits⟩
    obtain ⟨length, valid⟩ := valid_of_hexCharacters digits
    obtain ⟨bytes, pairs⟩ := (unhexPairs_isSome text.toUTF8.toList).mpr fun pair member =>
      have inside := mem_of_mem_bytePairs member
      ⟨Or.inl (valid _ inside.1), valid _ inside.2⟩
    exact ⟨bytes, by rw [unhex, length, if_pos even, pairs]⟩
  · intro bytes read
    exact (hexadecimal_of_unhex read unsigned).2

/-- A plus sign is read as if it were a zero: a text that is no digest has bytes, and they have
another text. -/
theorem unhex_plus_sign :
    unhex "+f" = some [15] ∧ '+' ∉ hexCharacters ∧ hex [15] ≠ "+f".toLower := by
  decide +kernel

/-! ## Service records -/

variable (platform : Platform) (multicast : Multicast)

/-- The service as the daemon of another device resolves it: the properties are unchanged. -/
def ServiceInfo.resolved (info : ServiceInfo) (fullname : String) (addresses : List ScopedIp) :
    ResolvedService :=
  ⟨fullname, fun key => (info.properties.find? fun entry => entry.1 = key).map Prod.snd, addresses⟩

/-- A service that is made has the properties of the identity, and a port. -/
theorem serviceInfo_eq_ok {identity : LocalIdentity} {metadata : DeviceMetadata} {port : UInt16}
    {info : ServiceInfo} (made : serviceInfo platform multicast identity metadata port = .ok info) :
    port ≠ 0 ∧ info.properties = serviceProperties platform multicast identity metadata port := by
  unfold serviceInfo at made
  split at made
  · cases made
  · rename_i nonzero
    dsimp only at made
    split at made
    · cases made
    · cases made
      exact ⟨nonzero, rfl⟩

variable {addresses : List ScopedIp}

/-- Some address is kept if some address can be reached from elsewhere. -/
theorem routable_ne_nil {address : ScopedIp} (member : address ∈ addresses)
    (remote : address.toIpAddr.isLoopback = false)
    (specified : address.toIpAddr.isUnspecified = false) : routable addresses ≠ [] := by
  refine List.ne_nil_of_mem (List.mem_filter.mpr ⟨member, ?_⟩)
  rw [remote, specified]
  rfl

/-- What is read from the service of a device. -/
theorem decodeService_resolved {identity : LocalIdentity} {metadata : DeviceMetadata}
    {port : UInt16} {info : ServiceInfo} {fullname : String} {now : Int}
    (bound : platform.Bound identity.deviceId identity.publicKey)
    (made : serviceInfo platform multicast identity metadata port = .ok info)
    (reachable : routable addresses ≠ []) :
    decodeService platform multicast (info.resolved fullname addresses) now = some
      { deviceId := identity.deviceId
        publicKey := identity.publicKey
        metadata
        addresses := sortDedup ((routable addresses).map ScopedIp.toIpAddr)
        connectionAddresses := sortDedup ((routable addresses).map (ScopedIp.endpoint port))
        port
        certificateSha256 := identity.certificateSha256
        lastSeenAtMs := now } := by
  obtain ⟨nonzero, properties⟩ := serviceInfo_eq_ok platform multicast made
  have positive : port.toNat ≠ 0 := fun zero => nonzero (UInt16.toNat_inj.mp zero)
  have minimum : parseNumber 4294967296 platform.minProtocolMinor.toNat.repr = some _ :=
    parseNumber_toString platform.minProtocolMinor.toNat_lt
  have maximum : parseNumber 4294967296 platform.maxProtocolMinor.toNat.repr = some _ :=
    parseNumber_toString platform.maxProtocolMinor.toNat_lt
  have range : platform.minProtocolMinor.toNat ≤ platform.maxProtocolMinor.toNat :=
    platform.minProtocolMinor_le
  have number : parseNumber 65536 port.toNat.repr = some _ := parseNumber_toString port.toNat_lt
  have certificate := unhex_hex identity.certificateSha256.toList
  simp [decodeService, minorProperty, ServiceInfo.resolved, properties, serviceProperties, minimum,
    maximum, range, bound.parsed, multicast.decodeBase64_encodeBase64, bound.read, bound.verified,
    Except.toOption, number, positive, certificate, reachable]
  exact Array.toArray_toList

/-- What can be said of every advertisement that is read from a service. -/
structure PeerAdvertisement.Routable (peer : PeerAdvertisement) : Prop where
  port : peer.port ≠ 0
  nonempty : peer.addresses ≠ []
  sorted : peer.Sorted
  remote : ∀ address ∈ peer.addresses, address.isLoopback = false ∧ address.isUnspecified = false
  /-- The addresses with port and interface are at these addresses. -/
  same : ∀ address, address ∈ peer.addresses ↔
    ∃ endpoint ∈ peer.connectionAddresses, endpoint.ip = address
  ports : ∀ endpoint ∈ peer.connectionAddresses, endpoint.port = peer.port

theorem ip_endpoint (port : UInt16) (address : ScopedIp) :
    (address.endpoint port).ip = address.toIpAddr := by
  cases address <;> rfl

theorem port_endpoint (port : UInt16) (address : ScopedIp) :
    (address.endpoint port).port = port := by
  cases address <;> rfl

/-- An advertisement whose lists are made of reachable addresses. -/
theorem routable_of_addresses {peer : PeerAdvertisement} (port : peer.port ≠ 0)
    (reachable : routable addresses ≠ [])
    (ips : peer.addresses = sortDedup ((routable addresses).map ScopedIp.toIpAddr))
    (endpoints : peer.connectionAddresses =
      sortDedup ((routable addresses).map (ScopedIp.endpoint peer.port))) : peer.Routable where
  port := port
  nonempty := by
    obtain ⟨address, member⟩ := List.exists_mem_of_ne_nil _ reachable
    rw [ips]
    exact List.ne_nil_of_mem (mem_sortDedup.mpr (List.mem_map_of_mem member))
  sorted := ⟨ips ▸ pairwise_sortDedup _, endpoints ▸ pairwise_sortDedup _⟩
  remote := by
    intro ip member
    rw [ips, mem_sortDedup] at member
    obtain ⟨address, kept, rfl⟩ := List.mem_map.mp member
    have far := (List.mem_filter.mp kept).2
    simpa using far
  same := by
    intro ip
    rw [ips, endpoints, mem_sortDedup]
    constructor
    · intro member
      obtain ⟨address, kept, rfl⟩ := List.mem_map.mp member
      exact ⟨_, mem_sortDedup.mpr (List.mem_map_of_mem kept), ip_endpoint _ address⟩
    · rintro ⟨endpoint, member, rfl⟩
      obtain ⟨address, kept, rfl⟩ := List.mem_map.mp (mem_sortDedup.mp member)
      exact ip_endpoint _ address ▸ List.mem_map_of_mem kept
  ports := by
    intro endpoint member
    rw [endpoints, mem_sortDedup] at member
    obtain ⟨address, -, rfl⟩ := List.mem_map.mp member
    exact port_endpoint _ address

/-- What is read from any service: the id is bound to the key, the advertisement is routable, and
its endpoints are those of the addresses. -/
theorem decodeService_sound {info : ResolvedService} {now : Int} {peer : PeerAdvertisement}
    (decoded : decodeService platform multicast info now = some peer) :
    platform.verifyKey peer.deviceId peer.publicKey = .ok () ∧ peer.Routable ∧
      ∀ endpoint ∈ peer.connectionAddresses, ∃ address ∈ info.addresses,
        address.endpoint peer.port = endpoint := by
  simp only [decodeService, Option.bind_eq_bind, Option.bind_eq_some_iff] at decoded
  obtain ⟨_, -, _, -, _, -, _, -, _, -, deviceId, -, _, -, _, -, publicKey, -, _, verified, _, -,
    port,
    parsed, _, nonzero, _, -, certificate, -, built⟩ := decoded
  split at built
  · simp only [Option.bind_eq_some_iff, Option.pure_def, Option.some.injEq] at built
    obtain ⟨_, reachable, rfl⟩ := built
    have checked : platform.verifyKey deviceId publicKey = .ok () := by
      cases check : platform.verifyKey deviceId publicKey with
      | ok value => rfl
      | error reason =>
        rw [check] at verified
        cases verified
    have whole : (UInt16.ofNat port).toNat = port :=
      UInt16.toNat_ofNat_of_lt (parseNumber_lt parsed)
    have positive : UInt16.ofNat port ≠ 0 := fun zero =>
      (Option.guard_eq_some' _).mp nonzero (whole.symm.trans (congrArg UInt16.toNat zero))
    refine ⟨checked, routable_of_addresses positive ((Option.guard_eq_some' _).mp reachable) rfl
      rfl, fun endpoint member => ?_⟩
    obtain ⟨address, kept, same⟩ := List.mem_map.mp (mem_sortDedup.mp member)
    exact ⟨address, (List.mem_filter.mp kept).1, same⟩
  · cases built

/-- A device that resolves the service of another, with the properties unchanged and with an address
that can be reached, reads the other's id, key, metadata, port and certificate digest. And whatever
a service says, what is read from it has an id bound to its key, a port, sorted addresses that can
be reached, and the same addresses with this port. -/
theorem service_record_round_trip (platform : Platform) (multicast : Multicast) :
    (∀ (identity : LocalIdentity) (metadata : DeviceMetadata) (port : UInt16) (info : ServiceInfo)
      (fullname : String) (addresses : List ScopedIp) (now : Int),
      platform.Bound identity.deviceId identity.publicKey →
      serviceInfo platform multicast identity metadata port = .ok info →
      (∃ address ∈ addresses, address.toIpAddr.isLoopback = false ∧
        address.toIpAddr.isUnspecified = false) →
      ∃ peer, decodeService platform multicast (info.resolved fullname addresses) now = some peer ∧
        peer.deviceId = identity.deviceId ∧ peer.publicKey = identity.publicKey ∧
        peer.metadata = metadata ∧ peer.port = port ∧
        peer.certificateSha256 = identity.certificateSha256) ∧
    ∀ (info : ResolvedService) (now : Int) (peer : PeerAdvertisement),
      decodeService platform multicast info now = some peer →
      platform.verifyKey peer.deviceId peer.publicKey = .ok () ∧ peer.port ≠ 0 ∧
      peer.addresses ≠ [] ∧ peer.addresses.Pairwise (· < ·) ∧
      (∀ address ∈ peer.addresses, address.isLoopback = false ∧ address.isUnspecified = false) ∧
      peer.connectionAddresses.Pairwise (· < ·) ∧
      (∀ address, address ∈ peer.addresses ↔
        ∃ endpoint ∈ peer.connectionAddresses, endpoint.ip = address) ∧
      ∀ endpoint ∈ peer.connectionAddresses, endpoint.port = peer.port := by
  constructor
  · rintro identity metadata port info fullname addresses now bound made
      ⟨address, member, remote, specified⟩
    have reachable := routable_ne_nil member remote specified
    exact ⟨_, decodeService_resolved platform multicast bound made reachable,
      rfl, rfl, rfl, rfl, rfl⟩
  · intro info now peer decoded
    obtain ⟨verified, routed, -⟩ := decodeService_sound platform multicast decoded
    exact ⟨verified, routed.port, routed.nonempty, routed.sorted.addresses, routed.remote,
      routed.sorted.connections, routed.same, routed.ports⟩

/-- A device with an id of full length. -/
def advertised : LocalIdentity :=
  let text := "arc-0123456789abcdef0123456789abcdef"
  ⟨⟨text⟩, .sample text, Vector.replicate 32 7⟩

/-- A service of the device, resolved with a loopback address and one that can be reached. -/
theorem service_record_round_trip_alice :
    ∃ info, serviceInfo (.sample [] ⟨none, []⟩) .sample advertised ⟨"Alice", "linux", "laptop"⟩
      4433 = .ok info ∧ info.instanceName = "arc-0123456789abcdef0123" ∧
    ∃ peer, decodeService (.sample [] ⟨none, []⟩) .sample
      (info.resolved "alice" [.v4 0x7f000001, .v6 0xfe800000000000000000000000000001 3]) 5 =
        some peer ∧ peer.deviceId = advertised.deviceId := by
  refine ⟨_, rfl, by decide +kernel, ?_⟩
  obtain ⟨peer, decoded, device, -⟩ :=
    (service_record_round_trip (.sample [] ⟨none, []⟩) .sample).1
      advertised ⟨"Alice", "linux", "laptop"⟩ 4433 _ "alice"
      [.v4 0x7f000001, .v6 0xfe800000000000000000000000000001 3] 5
      ⟨by decide +kernel, by decide +kernel, by decide +kernel⟩ rfl
      ⟨_, List.mem_cons_of_mem _ (List.mem_singleton_self _), by decide, by decide⟩
  exact ⟨peer, decoded, device⟩

end ArcRelay

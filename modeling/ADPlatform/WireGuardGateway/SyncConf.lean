import ADPlatform.APIGateway.ConfigNames
import ADPlatform.Lib.ConfigFile
import ADPlatform.WireGuardGateway.Peers

/-! # What `wg syncconf` reads

The grammar of the files that `wg syncconf` takes, as far as the gateway writes them, and what it
reads from a key or an address that has passed the checks of the gateway: those trim and skip line
breaks, and what is written is the text as it came. -/

namespace ADPlatform.WireGuardGateway
open APIGateway Net Text ConfigFile

/-! ## The grammar -/

/-- A peer, as far as it has been read. -/
structure SyncPeer where
  publicKey : Option (List UInt8) := none
  presharedKey : Option (List UInt8) := none
  allowedIPs : List (IP × Nat) := []
  deriving DecidableEq, Repr

/-- What a file says. -/
structure SyncConf where
  privateKey : Option (List UInt8) := none
  listenPort : Option Nat := none
  peers : List SyncPeer := []
  deriving DecidableEq, Repr

/-- The section that the reader is in. -/
inductive SyncSection where
  | top
  | interface
  | peer (peer : SyncPeer)
  deriving DecidableEq, Repr

/-- The peer of the section, if it is one. -/
def SyncSection.peers : SyncSection → List SyncPeer
  | peer p => [p]
  | _ => []

/-- What has been read, and the section that is open. -/
structure SyncReader where
  done : SyncConf := {}
  current : SyncSection := .top
  deriving DecidableEq, Repr

/-- What has been read, the open section included. -/
def SyncReader.conf (r : SyncReader) : SyncConf :=
  { r.done with peers := r.done.peers ++ r.current.peers }

/-- A new section closes the open one. -/
def SyncReader.enter (r : SyncReader) (current : SyncSection) : SyncReader := ⟨r.conf, current⟩

/-- A key is 44 characters of base64. -/
def parseKey (value : String) : Option (List UInt8) :=
  if value.toList.length = 44 then
    (Base64.stdDecode value.toList).filter fun key => key.length = 32
  else none

/-- A number of decimal digits. -/
def parseNumber (digits : List Char) : Option Nat :=
  if digits ≠ [] ∧ digits.all Char.isDigit then some (Nat.ofDigitChars 10 digits 0) else none

/-- A port is at most 65535. -/
def parsePort (value : String) : Option Nat := (parseNumber value.toList).filter (· ≤ 65535)

/-- The length of a full prefix. -/
def prefixLength : IP → Nat
  | .v4 _ => 32
  | .v6 _ => 128

/-- An address with its prefix, or alone. -/
def parseAllowedIP (part : List Char) : Option (IP × Nat) :=
  match part.splitOn '/' with
  | [address] => (parseIP (String.ofList address)).map fun ip => (ip, prefixLength ip)
  | [address, bits] =>
    (parseIP (String.ofList address)).bind fun ip =>
      ((parseNumber bits).filter (· ≤ prefixLength ip)).map fun n => (ip, n)
  | _ => none

/-- The addresses between the commas. -/
def parseAllowedIPs (value : String) : Option (List (IP × Nat)) :=
  (value.toList.splitOn ',').mapM fun part => parseAllowedIP (trim part)

/-- What a setting says of a peer. -/
def peerSetting (p : SyncPeer) (key value : String) : Option SyncPeer :=
  if key = "PublicKey" then (parseKey value).map fun k => { p with publicKey := some k }
  else if key = "PresharedKey" then (parseKey value).map fun k => { p with presharedKey := some k }
  else if key = "AllowedIPs" then
    (parseAllowedIPs value).map fun ips => { p with allowedIPs := p.allowedIPs ++ ips }
  else none

/-- What a setting says of the interface. -/
def interfaceSetting (c : SyncConf) (key value : String) : Option SyncConf :=
  if key = "PrivateKey" then (parseKey value).map fun k => { c with privateKey := some k }
  else if key = "ListenPort" then (parsePort value).map fun n => { c with listenPort := some n }
  else none

/-- The grammar of the file. -/
def syncConf : Grammar SyncReader where
  heading r name :=
    if name = "Interface" then some (r.enter .interface)
    else if name = "Peer" then some (r.enter (.peer {}))
    else none
  setting r key value :=
    match r.current with
    | .top => none
    | .interface => (interfaceSetting r.done key value).map fun done => { r with done }
    | .peer p => (peerSetting p key value).map fun p => { r with current := .peer p }

/-- A file is taken if all of it is read and every peer has a public key. -/
def parseSyncConf (config : String) : Option SyncConf :=
  ((syncConf.read {} config.toList).map SyncReader.conf).filter fun conf =>
    conf.peers.all fun p => p.publicKey.isSome

/-! ## Keys -/

/-- The text up to its first line feed. -/
def firstLine (s : String) : List Char := s.toList.takeWhile (· ≠ '\n')

/-- What is read from a key: what stands behind its first line has to be blank. -/
def lineKey (key : String) : Option (List UInt8) := parseKey (String.ofList (trim (firstLine key)))

/-- But for white space around it, the key is in one line, and in the first one. -/
def KeyLine (key : String) : Prop :=
  trim (firstLine key) = trim key.toList ∧ '\r' ∉ trim key.toList

instance (key : String) : Decidable (KeyLine key) := inferInstanceAs (Decidable (_ ∧ _))

theorem isSpace_base64 {c : Char} (h : c ∈ Base64.stdAlphabet ∨ c = '=') : isSpace c = false := by
  have hplain : ∀ c ∈ Base64.stdAlphabet, isSpace c = false :=
    List.forall_iff_forall_mem.mp (by decide)
  rcases h with h | rfl
  · exact hplain c h
  · decide

theorem parseKey_eq_some {value : String} {key : List UInt8} : parseKey value = some key ↔
    value.toList.length = 44 ∧ Base64.stdDecode value.toList = some key ∧ key.length = 32 := by
  rw [parseKey]
  split
  · rename_i h
    simp [h]
  · rename_i h
    simp [h]

theorem isValidWireGuardPublicKey_iff {key : String} : isValidWireGuardPublicKey key = true ↔
    ∃ decoded, Base64.stdDecode (trim key.toList) = some decoded ∧ decoded.length = 32 := by
  rw [isValidWireGuardPublicKey, toList_trimSpace, Option.any_eq_true]
  simp only [decide_eq_true_eq]

/-- A valid key is 44 characters, apart from white space. -/
theorem length_of_isValid {key : String} (h : isValidWireGuardPublicKey key = true) :
    (key.toList.filter fun c => !isSpace c).length = 44 := by
  obtain ⟨decoded, hdecoded, hlength⟩ := isValidWireGuardPublicKey_iff.mp h
  obtain ⟨hcore, hmem⟩ := Base64.stdDecode_key hdecoded hlength
  rw [← filter_trim, ← hcore]
  refine congrArg List.length (List.filter_congr fun c hc => ?_)
  by_cases hbreak : (c ≠ '\r' && c ≠ '\n') = true
  · rw [hbreak, isSpace_base64 (hmem c (List.mem_filter.mpr ⟨hc, hbreak⟩))]
    rfl
  · rw [Bool.not_eq_true] at hbreak
    rw [hbreak]
    simp only [Bool.and_eq_false_iff, decide_eq_false_iff_not, not_not] at hbreak
    rcases hbreak with rfl | rfl
    · decide
    · decide

/-- A key that is read is all there is. -/
theorem rest_blank {key : String} (h : isValidWireGuardPublicKey key = true) {decoded : List UInt8}
    (hline : lineKey key = some decoded) :
    (∀ c ∈ trim (firstLine key), c ≠ '\r' ∧ isSpace c = false) ∧
      ∀ c ∈ key.toList.dropWhile (· ≠ '\n'), isSpace c = true := by
  rw [lineKey, parseKey_eq_some, String.toList_ofList] at hline
  obtain ⟨hlength, hdecoded, h32⟩ := hline
  obtain ⟨hcore, hmem⟩ := Base64.stdDecode_key hdecoded h32
  have hself := List.length_filter_eq_length_iff.mp (hcore.trans hlength.symm)
  have hplain : ∀ c ∈ trim (firstLine key), c ≠ '\r' ∧ isSpace c = false := by
    intro c hc
    have hbreak := hself c hc
    refine ⟨?_, isSpace_base64 (hmem c (List.mem_filter.mpr ⟨hc, hbreak⟩))⟩
    simp only [Bool.and_eq_true, decide_eq_true_eq] at hbreak
    exact hbreak.1
  refine ⟨hplain, ?_⟩
  have hfirst : (firstLine key).filter (fun c => !isSpace c) = trim (firstLine key) := by
    rw [← filter_trim]
    exact List.filter_eq_self.mpr fun c hc => by simp [(hplain c hc).2]
  have htotal := length_of_isValid h
  rw [← List.takeWhile_append_dropWhile (p := fun c => decide (c ≠ '\n')) (l := key.toList),
    List.filter_append, List.length_append] at htotal
  have hrest : ((key.toList.dropWhile (· ≠ '\n')).filter fun c => !isSpace c) = [] := by
    have hfirst := congrArg List.length hfirst
    rw [firstLine] at hfirst hlength
    exact List.eq_nil_of_length_eq_zero (by omega)
  intro c hc
  simpa using List.filter_eq_nil_iff.mp hrest c hc

theorem keyLine_of_lineKey {key : String} (h : isValidWireGuardPublicKey key = true)
    {decoded : List UInt8} (hline : lineKey key = some decoded) : KeyLine key := by
  obtain ⟨hplain, hrest⟩ := rest_blank h hline
  have htrim : trim key.toList = trim (firstLine key) := by
    conv_lhs =>
      rw [← List.takeWhile_append_dropWhile (p := fun c => decide (c ≠ '\n')) (l := key.toList)]
    rw [trim_append_blank hrest, firstLine]
  exact ⟨htrim.symm, htrim ▸ fun hmem => (hplain _ hmem).1 rfl⟩

/-- What is read is the key exactly if it is in one line. -/
theorem lineKey_eq_some {key : String} {decoded : List UInt8}
    (hdecoded : Base64.stdDecode (trim key.toList) = some decoded) (h32 : decoded.length = 32) :
    lineKey key = some decoded ↔ KeyLine key := by
  constructor
  · exact keyLine_of_lineKey (isValidWireGuardPublicKey_iff.mpr ⟨decoded, hdecoded, h32⟩)
  · rintro ⟨hfirst, hreturn⟩
    obtain ⟨hcore, -⟩ := Base64.stdDecode_key hdecoded h32
    have hself : (trim key.toList).filter (fun c => c ≠ '\r' && c ≠ '\n') = trim key.toList := by
      refine List.filter_eq_self.mpr fun c hc => ?_
      have hnewline : c ≠ '\n' := by
        have hc := mem_of_mem_trim (hfirst ▸ hc)
        simpa using List.mem_takeWhile_imp hc
      have hcarriage : c ≠ '\r' := fun heq => hreturn (heq ▸ hc)
      simp [hnewline, hcarriage]
    rw [hself] at hcore
    rw [lineKey, parseKey_eq_some, String.toList_ofList, hfirst]
    exact ⟨hcore, hdecoded, h32⟩

/-- What is read from a line with a key, where the setting takes one. -/
theorem read_keyLine {σ : Type} {g : Grammar σ} {s : σ} {name : List Char} (hname : IsKey name)
    (f : List UInt8 → σ)
    (hset : ∀ value, g.setting s (String.ofList name) value = (parseKey value).map f)
    {key : String} (hkey : key = "" ∨ isValidWireGuardPublicKey key = true) :
    g.read s (name ++ ' ' :: '=' :: ' ' :: key.toList) = (lineKey key).map f := by
  by_cases hline : '\n' ∈ key.toList
  · obtain ⟨first, rest, heq, hfirst⟩ := List.eq_append_cons_of_mem hline
    have hvalid : isValidWireGuardPublicKey key = true := by
      refine hkey.resolve_left fun hempty => ?_
      rw [hempty] at hline
      cases hline
    have hnewline : ∀ c ∈ first, decide (c ≠ '\n') = true := fun c hc =>
      decide_eq_true fun h => hfirst (h ▸ hc)
    have htake : firstLine key = first := by
      rw [firstLine, heq, List.takeWhile_append_of_pos hnewline]
      simp
    have hdrop : key.toList.dropWhile (· ≠ '\n') = '\n' :: rest := by
      rw [heq, List.dropWhile_append_of_pos hnewline]
      simp
    rw [heq, Grammar.read_setting_cons hname hfirst, hset, ← htake, ← lineKey]
    cases hread : lineKey key with
    | none => rfl
    | some decoded =>
      have hrest := (rest_blank hvalid hread).2
      rw [hdrop] at hrest
      exact Grammar.read_blank fun c hc => hrest c (List.mem_cons_of_mem _ hc)
  · have htake : firstLine key = key.toList :=
      List.takeWhile_eq_self_iff.mpr fun c hc => decide_eq_true fun h => hline (h ▸ hc)
    rw [Grammar.read_setting hname hline, hset, lineKey, htake]

/-! ## Addresses -/

/-- What is read from an address with a prefix length of 32 behind it. -/
def lineAddress (address : String) : Option IP :=
  if '\n' ∈ address.toList then none
  else parseIP (String.ofList (address.toList.dropWhile isSpace))

/-- The address is a dotted quad that ends its line; white space may stand before it. -/
def AddressLine (address : String) : Prop :=
  '\n' ∉ address.toList ∧ address.toList.getLast?.all (fun c => !isSpace c) = true ∧
    (parseIP (trimSpace address)).any IP.isV4 = true

instance (address : String) : Decidable (AddressLine address) :=
  inferInstanceAs (Decidable (_ ∧ _ ∧ _))

/-- The IPv4 address, also one that is written in an IPv6 address. -/
def to4 : IP → Option IPv4
  | .v4 ip => some ip
  | .v6 bytes =>
    if bytes.take 12 = List.replicate 10 0 ++ [255, 255] then
      some ⟨bytes.getD 12 0, bytes.getD 13 0, bytes.getD 14 0, bytes.getD 15 0⟩
    else none

theorem isValidIP_to4 {address : String} (h : isValidIP address = true) :
    ∃ ip, (parseIP (trimSpace address)).bind to4 = some ip := by
  unfold isValidIP at h
  split at h
  · cases h
  · rename_i ip heq
    exact ⟨ip, by rw [heq]; rfl⟩
  · rename_i bytes heq
    exact ⟨_, by rw [heq]; exact if_pos (of_decide_eq_true h)⟩

/-- But for white space, a valid address has only the characters of addresses. -/
theorem mem_of_isValidIP {address : String} (h : isValidIP address = true) :
    ∀ c ∈ address.toList, isSpace c = true ∨ IPv6.IsAddressChar c := by
  intro c hc
  obtain ⟨_, hto4⟩ := isValidIP_to4 h
  obtain ⟨ip, hip, -⟩ := Option.bind_eq_some_iff.mp hto4
  by_cases hspace : isSpace c = true
  · exact .inl hspace
  · refine .inr (isAddressChar_of_parseIP hip c ?_)
    have hmem : c ∈ address.toList.filter fun c => !isSpace c :=
      List.mem_filter.mpr ⟨hc, by simpa using hspace⟩
    rw [← filter_trim] at hmem
    rw [toList_trimSpace]
    exact List.mem_of_mem_filter hmem

theorem notMem_of_isValidIP {c : Char} (h : c ∈ ['=', '#', '[', ',', '/']) {address : String}
    (hvalid : isValidIP address = true) : c ∉ address.toList := by
  have hother : ∀ c ∈ ['=', '#', '[', ',', '/'],
      ¬ (isSpace c = true ∨ (IPv6.hexValue c).isSome ∨ c = ':' ∨ c = '.') :=
    List.forall_iff_forall_mem.mp (by decide)
  exact fun hc => hother c h (mem_of_isValidIP hvalid c hc)

/-- The last line of an address with line feeds is no line of a file. -/
theorem read_address_cons {g : Grammar σ} {s : σ} {name : List Char} {address : String}
    (hvalid : isValidIP address = true) (hline : '\n' ∈ address.toList) :
    g.read s (name ++ ' ' :: '=' :: ' ' :: (address.toList ++ "/32".toList)) = none := by
  obtain ⟨last, first, heq, hlast⟩ := List.eq_append_cons_of_mem (List.mem_reverse.mpr hline)
  have heq : address.toList = first.reverse ++ '\n' :: last.reverse := by
    have := congrArg List.reverse heq
    simpa using this
  have hmem {c : Char} (hc : c ∈ ['=', '#', '[', ',', '/']) (hne : c ∉ "/32".toList) :
      c ∉ last.reverse ++ "/32".toList := by
    intro h
    refine notMem_of_isValidIP hc hvalid ?_
    rw [heq]
    exact List.mem_append_right _
      (List.mem_cons_of_mem _ ((List.mem_append.mp h).resolve_right hne))
  have hjunk : readLine (last.reverse ++ "/32".toList) = none :=
    readLine_junk (hmem (by decide) (by decide)) (hmem (by decide) (by decide))
      (hmem (by decide) (by decide)) ⟨'/', List.mem_append_right _ (by decide), by decide⟩
  have hnewline : '\n' ∉ last.reverse ++ "/32".toList := by
    intro h
    rcases List.mem_append.mp h with h | h
    · exact hlast (List.mem_reverse.mp h)
    · exact absurd h (by decide)
  have hlines : name ++ ' ' :: '=' :: ' ' :: (address.toList ++ "/32".toList) =
      (name ++ ' ' :: '=' :: ' ' :: first.reverse) ++ '\n' :: (last.reverse ++ "/32".toList) := by
    rw [heq]
    simp
  rw [hlines, Grammar.read_cons]
  cases g.read s (name ++ ' ' :: '=' :: ' ' :: first.reverse) with
  | none => rfl
  | some s =>
    rw [Option.bind_some, Grammar.read_line hnewline, Grammar.step, hjunk]

/-- White space in front of an address is passed over. -/
theorem trim_address (l : List Char) :
    trim (l ++ "/32".toList) = l.dropWhile isSpace ++ "/32".toList := by
  have hslash : "/32".toList.dropWhile isSpace = "/32".toList := by decide
  have hdrop : (l ++ "/32".toList).dropWhile isSpace = l.dropWhile isSpace ++ "/32".toList := by
    rw [List.dropWhile_append]
    split
    · rename_i hl
      rw [List.isEmpty_iff.mp hl, hslash, List.nil_append]
    · rfl
  have hlast : "/32".toList.reverse = ['2', '3', '/'] := by decide
  rw [trim, hdrop, List.reverse_append, hlast, List.cons_append,
    List.dropWhile_cons_of_neg (by decide), ← List.cons_append, ← hlast, ← List.reverse_append,
    List.reverse_reverse]

theorem parseAllowedIPs_address {l : List Char} (hcomma : ',' ∉ l) (hslash : '/' ∉ l) :
    parseAllowedIPs (String.ofList (trim (l ++ "/32".toList))) =
      (parseIP (String.ofList (l.dropWhile isSpace))).map fun ip => [(ip, 32)] := by
  have hdrop : ∀ c ∈ l.dropWhile isSpace, c ∈ l := fun c hc => (List.dropWhile_sublist _).mem hc
  have hcomma : ',' ∉ l.dropWhile isSpace ++ "/32".toList := by
    intro h
    rcases List.mem_append.mp h with h | h
    · exact hcomma (hdrop _ h)
    · exact absurd h (by decide)
  have hparts :
      (l.dropWhile isSpace ++ "/32".toList).splitOn '/' = [l.dropWhile isSpace, "32".toList] := by
    have htail : "/32".toList = '/' :: "32".toList := by decide
    rw [htail, List.splitOn_append_cons_self, List.splitOn_eq_singleton fun h => hslash (hdrop _ h)]
    rfl
  have hnumber : parseNumber "32".toList = some 32 := by decide
  rw [parseAllowedIPs, trim_address, String.toList_ofList, List.splitOn_eq_singleton hcomma,
    List.mapM_cons, List.mapM_nil, trim_address, List.dropWhile_idempotent, parseAllowedIP, hparts]
  dsimp only
  rw [hnumber]
  cases parseIP (String.ofList (l.dropWhile isSpace)) with
  | none => rfl
  | some ip => cases ip <;> rfl

theorem read_addressLine {g : Grammar σ} {s : σ} {name : List Char} (hname : IsKey name)
    (f : List (IP × Nat) → σ)
    (hset : ∀ value, g.setting s (String.ofList name) value = (parseAllowedIPs value).map f)
    {address : String} (hvalid : isValidIP address = true) :
    g.read s (name ++ ' ' :: '=' :: ' ' :: (address.toList ++ "/32".toList)) =
      (lineAddress address).map fun ip => f [(ip, 32)] := by
  by_cases hline : '\n' ∈ address.toList
  · rw [read_address_cons hvalid hline, lineAddress, if_pos hline]
    rfl
  · have hvalue : '\n' ∉ address.toList ++ "/32".toList := by
      intro h
      rcases List.mem_append.mp h with h | h
      · exact hline h
      · exact absurd h (by decide)
    rw [Grammar.read_setting hname hvalue, hset, lineAddress, if_neg hline,
      parseAllowedIPs_address (notMem_of_isValidIP (by decide) hvalid)
        (notMem_of_isValidIP (by decide) hvalid), Option.map_map]
    rfl

/-- What is read is the address of the peer exactly if the dotted quad ends its line. -/
theorem lineAddress_eq_some {address : String} {ip : IPv4}
    (hip : (parseIP (trimSpace address)).bind to4 = some ip) :
    lineAddress address = some (.v4 ip) ↔ AddressLine address := by
  have hspace (ip : IPv4) : ∀ c ∈ ip.text.toList, isSpace c = false := by
    intro c hc
    rcases IPv4.mem_text hc with rfl | h
    · decide
    · exact isSpace_of_isDigit h
  constructor
  · intro hline
    unfold lineAddress at hline
    split at hline
    · cases hline
    rename_i hnewline
    have htext := congrArg String.toList (parseIP_eq_v4.mp hline)
    rw [String.toList_ofList] at htext
    have hsplit : address.toList = address.toList.takeWhile isSpace ++ ip.text.toList := by
      rw [← htext, List.takeWhile_append_dropWhile]
    have htrim : trimSpace address = ip.text := by
      have hself := trimSpace_text ip
      rw [← String.toList_inj, toList_trimSpace] at hself ⊢
      rw [trim, htext]
      have hfront : ip.text.toList.dropWhile isSpace = ip.text.toList := by
        rw [← htext, List.dropWhile_idempotent]
      rwa [trim, hfront] at hself
    refine ⟨hnewline, ?_, by rw [htrim, parseIP_text]; rfl⟩
    rw [Option.all_eq_true]
    intro c hc
    have hne : ip.text.toList ≠ [] := by
      rw [IPv4.toList_text]
      simp
    rw [hsplit, List.getLast?_append_of_ne_nil _ hne] at hc
    rw [hspace ip c (List.mem_of_getLast? hc)]
    rfl
  · rintro ⟨hnewline, hlast, hv4⟩
    have htrim : trimSpace address = String.ofList (address.toList.dropWhile isSpace) := by
      rw [trimSpace]
      refine congrArg String.ofList ?_
      have hself : (address.toList.dropWhile isSpace).reverse.dropWhile isSpace =
          (address.toList.dropWhile isSpace).reverse := by
        cases hrev : (address.toList.dropWhile isSpace).reverse with
        | nil => rfl
        | cons c rest =>
          refine List.dropWhile_cons_of_neg ?_
          have hc : (address.toList.dropWhile isSpace).getLast? = some c := by
            rw [← List.head?_reverse, hrev]
            rfl
          have hall : address.toList.getLast? = some c := by
            rw [← List.takeWhile_append_dropWhile (p := isSpace) (l := address.toList),
              List.getLast?_append, hc]
            rfl
          rw [hall] at hlast
          simpa using hlast
      rw [hself, List.reverse_reverse]
    rw [lineAddress, if_neg hnewline, ← htrim]
    obtain ⟨read, hread, hto4⟩ := Option.bind_eq_some_iff.mp hip
    rw [hread] at hv4 ⊢
    cases read with
    | v4 other =>
      cases hto4
      rfl
    | v6 bytes => cases hv4

end ADPlatform.WireGuardGateway

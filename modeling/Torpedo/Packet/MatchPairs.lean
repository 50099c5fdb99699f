import Torpedo.Packet.MatchText
import Torpedo.Util.LastWrites

/-!
# Pairs of keys and values

What `loadOFMatchFromString` makes of a text. It goes over the pairs once, and keeps the protocol that it has met
last for the ports that are still to come. Which of two pairs of the same field comes later decides, too.
-/

namespace Torpedo

namespace OFProtocol

open StaticFlowEntry (toLowerCase)

/-! ## Texts -/

variable (characters : Digits)

/-- A port, or for ICMP a type or a code. Without one of these protocols the value is not looked at. -/
def transport (nwProto : Option ℤ) (icmp tcp udp : MatchField) (value : String) :
    Except MatchTextFailure (List FieldSetting) := do
  if nwProto = some 1 then ofNumber icmp (← number characters 10 16 value)
  else if nwProto = some 6 then ofNumber tcp (← number characters 10 16 value)
  else if nwProto = some 17 then ofNumber udp (← number characters 10 16 value)
  else return []

def readTos (value : String) : Except MatchTextFailure (List FieldSetting) := do
  let scratch ← number characters 10 8 value
  let dscp ← ofNumber .ipDscp ((0xfc &&& Int32.ofInt scratch) >>> 2).toInt
  let ecn ← ofNumber .ipEcn (0x03 &&& Int32.ofInt scratch).toInt
  return dscp ++ ecn

/-- The settings of a pair, when a protocol has been met or none. -/
def settingsOf (unknown : MatchTextFailure) (nwProto : Option ℤ) (key value : String) :
    Except MatchTextFailure (List FieldSetting) :=
  match key with
  | "in_port" | "input_port" => do ofNumber .inPort (← number characters 10 32 value)
  | "dl_dst" | "eth_dst" => readMac characters .ethDst value
  | "dl_src" | "eth_src" => readMac characters .ethSrc value
  | "dl_type" | "eth_type" => do
    ofNumber .ethType (← markedNumber characters (['0', 'x'] <+: value.toList) value)
  | "dl_vlan" => do ofNumber .vlanVid (← markedNumber characters (['0', 'x'] <:+: value.toList) value)
  | "dl_vpcp" => do ofNumber .vlanPcp (← number characters 10 8 value)
  | "nw_dst" | "ip_dst" => do return [cidrSetting .nwDst (← readCIDR characters value)]
  | "nw_src" | "ip_src" => do return [cidrSetting .nwSrc (← readCIDR characters value)]
  | "nw_proto" => do return [⟨.ipProto, ← readProtocol characters value, none⟩]
  | "nw_tos" => readTos characters value
  | "tp_dst" => transport characters nwProto .icmpv4Code .tcpDst .udpDst value
  | "tp_src" => transport characters nwProto .icmpv4Type .tcpSrc .udpSrc value
  | _ => .error unknown

/-- The builder, and the protocol that has been met. -/
structure Loading where
  builder : OfMatch MatchField ℤ
  nwProto : Option ℤ

def Loading.new : Loading := ⟨fun _ => none, none⟩

/-- The protocol after a pair. -/
def nextProtocol (key value : String) (nwProto : Option ℤ) : Option ℤ :=
  if key = "nw_proto" then (readProtocol characters value).toOption else nwProto

def setPair (version : OFVersion) (unknown : MatchTextFailure) (st : Loading) (key value : String) :
    Except MatchTextFailure Loading := do
  let settings ← settingsOf characters unknown st.nwProto key value
  let builder ← settings.foldlM (set version) st.builder
  return ⟨builder, nextProtocol characters key value st.nwProto⟩

/-- The body of the loop, for a text that is cut into tokens. -/
def setToken (version : OFVersion) (ofMatch : String) (st : Loading) (token : List Char) :
    Except MatchTextFailure Loading :=
  match splitPieces '=' token with
  | [key, value] =>
    setPair characters version (.illegalArgument ("unknown token " ++ .ofList token ++ " parsing " ++ ofMatch)) st
      (toLowerCase (.ofList key)) (.ofList value)
  | _ => .error (.illegalArgument
    ("Token " ++ .ofList token ++ " does not have form 'key=value' parsing " ++ ofMatch))

def isSeparator (c : Char) : Bool := c = '[' || c = ',' || c = ']'

/-- A text is cut at separators, and the pieces at the end that are empty are left out. -/
def splitTokens (text : List Char) : List (List Char) :=
  if text.any isSeparator then ((text.splitOnP isSeparator).reverse.dropWhile List.isEmpty).reverse else [text]

def loadOFMatchFromString (version : OFVersion) (ofMatch : String) :
    Except MatchTextFailure (OfMatch MatchField ℤ) := do
  let ofMatch := if ofMatch = "" ∨ toLowerCase ofMatch = "any" ∨ toLowerCase ofMatch = "all" ∨ ofMatch = "[]"
    then "OFMatch[]" else ofMatch
  let tokens := splitTokens ofMatch.toList
  let first ← orFail tokens.head?
  let st ← (if first = "OFMatch".toList then tokens.tail else tokens).foldlM
    (setToken characters version ofMatch) .new
  return build version st.builder

end OFProtocol

/-! ## Texts of pairs -/

/-- A key and a value that a text can have. -/
structure Pair where
  key : List Char
  value : List Char
  value_ne : value ≠ []
  key_plain : ∀ c ∈ key, OFProtocol.isSeparator c = false ∧ c ≠ '='
  value_plain : ∀ c ∈ value, OFProtocol.isSeparator c = false ∧ c ≠ '='

namespace Pair

open OFProtocol (isSeparator)

def text (p : Pair) : List Char := p.key ++ '=' :: p.value

/-- The key as it is compared. -/
def name (p : Pair) : String := StaticFlowEntry.toLowerCase (.ofList p.key)

def valueText (p : Pair) : String := .ofList p.value

/-- Pairs with commas between. -/
def textOf (pairs : List Pair) : String := .ofList ([','].intercalate (pairs.map text))

theorem splitPieces_text (p : Pair) : splitPieces '=' p.text = [p.key, p.value] := by
  have hnot : ∀ cs ∈ [p.key] ++ [p.value], '=' ∉ cs := by
    intro cs hcs hmem
    obtain rfl | hcs := List.mem_cons.1 hcs
    · exact (p.key_plain _ hmem).2 rfl
    · rw [List.mem_singleton.1 hcs] at hmem
      exact (p.value_plain _ hmem).2 rfl
  simpa [text] using splitPieces_intercalate [p.key] hnot p.value_ne

theorem isSeparator_of_mem_text {p : Pair} {c : Char} (h : c ∈ p.text) : isSeparator c = false := by
  unfold text at h
  rw [List.mem_append, List.mem_cons] at h
  obtain h | rfl | h := h
  · exact (p.key_plain c h).1
  · rfl
  · exact (p.value_plain c h).1

theorem equals_mem_text (p : Pair) : '=' ∈ p.text := List.mem_append_right _ List.mem_cons_self

theorem text_ne (p : Pair) : p.text ≠ [] := List.ne_nil_of_mem p.equals_mem_text

end Pair

namespace OFProtocol

open StaticFlowEntry (toLowerCase)

theorem splitOnP_congr {p q : Char → Bool} {text : List Char} (h : ∀ c ∈ text, p c = q c) :
    text.splitOnP p = text.splitOnP q := by
  induction text with
  | nil => rfl
  | cons c text ih =>
    obtain ⟨hc, htext⟩ := List.forall_mem_cons.1 h
    rw [List.splitOnP_cons_eq_if_modifyHead, List.splitOnP_cons_eq_if_modifyHead, hc, ih htext]

/-- Where commas are the only separators, a text is cut at commas. -/
theorem splitTokens_eq {text : List Char} (h : ∀ c ∈ text, isSeparator c = (c == ',')) :
    splitTokens text = splitPieces ',' text := by
  have hany : text.any isSeparator = true ↔ ',' ∈ text := by
    rw [List.any_eq_true]
    constructor
    · rintro ⟨c, hc, hsep⟩
      rw [h c hc] at hsep
      exact eq_of_beq hsep ▸ hc
    · exact fun hmem => ⟨',', hmem, rfl⟩
  unfold splitTokens splitPieces
  rw [splitOnP_congr h]
  simp only [hany]
  rfl

theorem splitTokens_textOf {pairs : List Pair} (hne : pairs ≠ []) :
    splitTokens (Pair.textOf pairs).toList = pairs.map Pair.text := by
  have hcomma : ∀ p ∈ pairs, ',' ∉ p.text := fun p _ hmem => nomatch Pair.isSeparator_of_mem_text hmem
  have hsep : ∀ c ∈ [','].intercalate (pairs.map Pair.text), isSeparator c = (c == ',') := by
    intro c hc
    obtain rfl | ⟨text, htext, hc⟩ := mem_intercalate hc
    · rfl
    · obtain ⟨p, hp, rfl⟩ := List.mem_map.1 htext
      have hne : c ≠ ',' := by
        rintro rfl
        exact hcomma p hp hc
      rw [Pair.isSeparator_of_mem_text hc, beq_eq_false_iff_ne.2 hne]
  unfold Pair.textOf
  rw [String.toList_ofList, splitTokens_eq hsep]
  rcases List.eq_nil_or_concat' pairs with rfl | ⟨init, last, rfl⟩
  · exact absurd rfl hne
  · rw [List.map_append, List.map_singleton]
    refine splitPieces_intercalate _ (fun text htext => ?_) last.text_ne
    rw [← List.map_singleton, ← List.map_append] at htext
    obtain ⟨p, hp, rfl⟩ := List.mem_map.1 htext
    exact hcomma p hp

theorem equals_mem_textOf {pairs : List Pair} (hne : pairs ≠ []) : '=' ∈ (Pair.textOf pairs).toList := by
  cases pairs with
  | nil => exact absurd rfl hne
  | cons p pairs =>
    unfold Pair.textOf
    rw [String.toList_ofList, List.map_cons]
    cases pairs with
    | nil => simpa using p.equals_mem_text
    | cons q pairs =>
      rw [List.map_cons, List.intercalate_cons_cons]
      exact List.mem_append_left _ (List.mem_append_left _ p.equals_mem_text)

/-- A text with an equals sign is none of those that are replaced. -/
theorem not_replaced {text : String} (h : '=' ∈ text.toList) :
    ¬(text = "" ∨ toLowerCase text = "any" ∨ toLowerCase text = "all" ∨ text = "[]") := by
  have hlower : '=' ∈ (toLowerCase text).toList := by
    unfold toLowerCase
    rw [String.toList_ofList]
    exact List.mem_map.2 ⟨'=', h, rfl⟩
  rintro (rfl | heq | heq | rfl)
  · exact absurd h (by decide)
  · rw [heq] at hlower
    exact absurd hlower (by decide)
  · rw [heq] at hlower
    exact absurd hlower (by decide)
  · exact absurd h (by decide)

/-- The loop goes over the pairs of a text. -/
theorem loadOFMatchFromString_textOf (characters : Digits) (version : OFVersion) (pairs : List Pair) :
    loadOFMatchFromString characters version (Pair.textOf pairs) =
      ((pairs.map Pair.text).foldlM (setToken characters version (Pair.textOf pairs)) .new >>= fun st =>
        .ok (build version st.builder)) := by
  by_cases hne : pairs = []
  · subst hne
    rfl
  · have htokens := splitTokens_textOf hne
    unfold loadOFMatchFromString
    rw [if_neg (not_replaced (equals_mem_textOf hne))]
    cases pairs with
    | nil => exact absurd rfl hne
    | cons p pairs =>
      have hfirst : p.text ≠ "OFMatch".toList := fun heq =>
        absurd (heq ▸ p.equals_mem_text : '=' ∈ "OFMatch".toList) (by decide)
      dsimp only
      rw [htokens]
      show (List.foldlM (setToken characters version (Pair.textOf (p :: pairs))) .new
        (if p.text = "OFMatch".toList then pairs.map Pair.text else p.text :: pairs.map Pair.text) >>=
          fun st => .ok (build version st.builder)) = _
      rw [if_neg hfirst]
      rfl

/-! ## Runs of the loop -/

section

variable (characters : Digits) (version : OFVersion)

/-- The settings of a pair, if they are made without an exception. -/
def pairSettings (nwProto : Option ℤ) (p : Pair) : Option (List FieldSetting) :=
  (settingsOf characters .runtime nwProto p.name p.valueText).toOption.filter fun settings =>
    settings.all (supports version)

/-- All pairs are read, when a protocol has been met or none. -/
def Accepted : Option ℤ → List Pair → Prop
  | _, [] => True
  | nwProto, p :: pairs =>
    (pairSettings characters version nwProto p).isSome ∧
      Accepted (nextProtocol characters p.name p.valueText nwProto) pairs

/-- The settings that pairs make, in their order. -/
def settingsIn : Option ℤ → List Pair → List FieldSetting
  | _, [] => []
  | nwProto, p :: pairs =>
    (pairSettings characters version nwProto p).getD [] ++
      settingsIn (nextProtocol characters p.name p.valueText nwProto) pairs

/-- The write that a setting is to a builder. -/
def writeOf (setting : FieldSetting) : MatchField × Option (Oxm ℤ) := (slot version setting.field, content setting)

/-- The builder after settings. -/
def apply (builder : OfMatch MatchField ℤ) (settings : List FieldSetting) : OfMatch MatchField ℤ :=
  if version = .of11 then builder else writes builder (settings.map (writeOf version))

/-- The builder after pairs. -/
def loaded (pairs : List Pair) : OfMatch MatchField ℤ :=
  writes (fun _ => none) ((settingsIn characters version none pairs).map (writeOf version))

variable {characters version} {builder builder' : OfMatch MatchField ℤ} {settings settings' : List FieldSetting}
  {nwProto : Option ℤ} {p : Pair} {pairs : List Pair} {st st' : Loading} {m : OfMatch MatchField ℤ}

theorem apply_append :
    apply version builder (settings ++ settings') = apply version (apply version builder settings) settings' := by
  unfold apply
  split_ifs
  · rfl
  · rw [List.map_append, writes_append]

theorem set_eq_ok_iff {setting : FieldSetting} :
    set version builder setting = .ok builder' ↔
      supports version setting ∧ builder' = apply version builder [setting] := by
  have hset : set version builder setting =
      if supports version setting then .ok (apply version builder [setting]) else .error .runtime := by
    unfold set
    cases version <;> rfl
  rw [hset]
  by_cases hsupports : supports version setting
  · rw [if_pos hsupports, and_iff_right hsupports]
    exact ⟨fun h => (Except.ok.inj h).symm, fun h => congrArg _ h.symm⟩
  · rw [if_neg hsupports]
    exact iff_of_false nofun fun h => hsupports h.1

theorem foldlM_set_eq_ok_iff : settings.foldlM (set version) builder = .ok builder' ↔
    settings.all (supports version) ∧ builder' = apply version builder settings := by
  induction settings generalizing builder with
  | nil =>
    have hnil : apply version builder [] = builder := by
      unfold apply
      split_ifs <;> rfl
    rw [hnil]
    exact ⟨fun h => ⟨rfl, (Except.ok.inj h).symm⟩, fun h => congrArg _ h.2.symm⟩
  | cons setting settings ih =>
    have happly : apply version builder (setting :: settings) =
        apply version (apply version builder [setting]) settings := by
      rw [← apply_append]
      rfl
    rw [List.foldlM_cons, List.all_cons, Bool.and_eq_true, happly]
    constructor
    · intro h
      obtain ⟨b, hset, h⟩ := of_bind_eq_ok h
      obtain ⟨hsupports, rfl⟩ := set_eq_ok_iff.1 hset
      obtain ⟨hall, hb⟩ := ih.1 h
      exact ⟨⟨hsupports, hall⟩, hb⟩
    · rintro ⟨⟨hsupports, hall⟩, hb⟩
      rw [set_eq_ok_iff.2 ⟨hsupports, rfl⟩]
      exact ih.2 ⟨hall, hb⟩

/-- Which pairs are read has nothing to do with the exception for the others. -/
theorem toOption_settingsOf (unknown unknown' : MatchTextFailure) (key value : String) :
    (settingsOf characters unknown nwProto key value).toOption =
      (settingsOf characters unknown' nwProto key value).toOption := by
  unfold settingsOf
  split <;> rfl

theorem pairSettings_eq_some_iff {unknown : MatchTextFailure} :
    pairSettings characters version nwProto p = some settings ↔
      settingsOf characters unknown nwProto p.name p.valueText = .ok settings ∧
        settings.all (supports version) := by
  unfold pairSettings
  rw [Option.filter_eq_some_iff, toOption_settingsOf .runtime unknown]
  cases settingsOf characters unknown nwProto p.name p.valueText with
  | ok _ => simp [Except.toOption]
  | error _ => simp [Except.toOption]

/-- One round of the loop. -/
theorem setToken_text_eq_ok_iff {ofMatch : String} : setToken characters version ofMatch st p.text = .ok st' ↔
    ∃ settings, pairSettings characters version st.nwProto p = some settings ∧
      st' = ⟨apply version st.builder settings, nextProtocol characters p.name p.valueText st.nwProto⟩ := by
  unfold setToken
  rw [p.splitPieces_text]
  show setPair characters version _ st p.name p.valueText = _ ↔ _
  constructor
  · intro h
    obtain ⟨settings, hsettings, h⟩ := of_bind_eq_ok h
    obtain ⟨b, hset, h⟩ := of_bind_eq_ok h
    obtain ⟨hall, rfl⟩ := foldlM_set_eq_ok_iff.1 hset
    exact ⟨settings, pairSettings_eq_some_iff.2 ⟨hsettings, hall⟩, (Except.ok.inj h).symm⟩
  · rintro ⟨settings, hsettings, rfl⟩
    obtain ⟨hsettings, hall⟩ := pairSettings_eq_some_iff.1 hsettings
    unfold setPair
    rw [hsettings]
    show (settings.foldlM (set version) st.builder >>= _) = _
    rw [foldlM_set_eq_ok_iff.2 ⟨hall, rfl⟩]
    rfl

theorem accepted_cons : Accepted characters version nwProto (p :: pairs) ↔
    (pairSettings characters version nwProto p).isSome ∧
      Accepted characters version (nextProtocol characters p.name p.valueText nwProto) pairs :=
  Iff.rfl

theorem settingsIn_cons_of_eq_some (h : pairSettings characters version nwProto p = some settings) :
    settingsIn characters version nwProto (p :: pairs) =
      settings ++ settingsIn characters version (nextProtocol characters p.name p.valueText nwProto) pairs := by
  show (pairSettings characters version nwProto p).getD [] ++ _ = _
  rw [h, Option.getD_some]

/-- What the loop does with pairs. -/
theorem foldlM_setToken_eq_ok_iff {ofMatch : String} :
    (pairs.map Pair.text).foldlM (setToken characters version ofMatch) st = .ok st' ↔
      Accepted characters version st.nwProto pairs ∧
        st' = ⟨apply version st.builder (settingsIn characters version st.nwProto pairs),
          pairs.foldl (fun nwProto p => nextProtocol characters p.name p.valueText nwProto) st.nwProto⟩ := by
  induction pairs generalizing st with
  | nil =>
    have hnil : apply version st.builder [] = st.builder := by
      unfold apply
      split_ifs <;> rfl
    unfold Accepted settingsIn
    rw [hnil]
    exact ⟨fun h => ⟨trivial, (Except.ok.inj h).symm⟩, fun h => congrArg _ h.2.symm⟩
  | cons p pairs ih =>
    rw [List.map_cons, List.foldlM_cons, accepted_cons, List.foldl_cons]
    constructor
    · intro h
      obtain ⟨st₁, hround, h⟩ := of_bind_eq_ok h
      obtain ⟨settings, hsettings, rfl⟩ := setToken_text_eq_ok_iff.1 hround
      obtain ⟨hpairs, hst⟩ := ih.1 h
      dsimp only at hpairs hst
      rw [settingsIn_cons_of_eq_some hsettings, apply_append]
      exact ⟨⟨Option.isSome_iff_exists.2 ⟨settings, hsettings⟩, hpairs⟩, hst⟩
    · rintro ⟨⟨hp, hpairs⟩, hst⟩
      obtain ⟨settings, hsettings⟩ := Option.isSome_iff_exists.1 hp
      rw [settingsIn_cons_of_eq_some hsettings, apply_append] at hst
      rw [setToken_text_eq_ok_iff.2 ⟨settings, hsettings, rfl⟩]
      refine ih.2 ?_
      dsimp only
      exact ⟨hpairs, hst⟩

/-- What a text of pairs is loaded to. -/
theorem load_eq_ok_iff : loadOFMatchFromString characters version (Pair.textOf pairs) = .ok m ↔
    Accepted characters version none pairs ∧ m = build version (loaded characters version pairs) := by
  have hbuild : build version (apply version (fun _ => none) (settingsIn characters version none pairs)) =
      build version (loaded characters version pairs) := by
    cases version <;> rfl
  rw [loadOFMatchFromString_textOf, ← hbuild]
  constructor
  · intro h
    obtain ⟨st, hrun, h⟩ := of_bind_eq_ok h
    obtain ⟨haccepted, rfl⟩ := foldlM_setToken_eq_ok_iff.1 hrun
    exact ⟨haccepted, (Except.ok.inj h).symm⟩
  · rintro ⟨haccepted, rfl⟩
    rw [foldlM_setToken_eq_ok_iff.2 ⟨haccepted, rfl⟩]
    rfl

end

end OFProtocol

end Torpedo

import Remoting.Proofs.BigEndian
import Remoting.Proofs.Fallible
import Remoting.Schema.Fingerprint

/-!
# Remoting.Proofs.DigestInputs

What is digested can be read off the bytes that are hashed. No token starts another one
(`Token.toBytes_append_inj`), so bytes stand for one list of tokens (`Token.bytes_inj`), and a list
of tokens stands for one operation, or for one type up to what its digest leaves out.

Of a type the digest takes in the storage class, the qualified name, and the structure one level
deep. `TypeKind.Alike` compares two kinds of type in that way: members are compared as they are seen
through a view of each side, which here is their token.
-/

namespace Remoting

open List

variable {ts : List Token}

/-! ## Texts -/

theorem utf8_inj {s t : String} (h : utf8 s = utf8 t) : s = t :=
  Option.some.inj ((ofUtf8?_eq_some_iff.mpr rfl).symm.trans (ofUtf8?_eq_some_iff.mpr h))

theorem bigEndian_inj {width n k : Nat} (hn : n < 256 ^ width) (hk : k < 256 ^ width)
    (h : bigEndian width n = bigEndian width k) : n = k := by
  have hread := congrArg ofBigEndian h
  rwa [ofBigEndian_bigEndian, ofBigEndian_bigEndian, Nat.mod_eq_of_lt hn, Nat.mod_eq_of_lt hk]
    at hread

theorem Role.name_inj {r s : Role} (h : r.name = s.name) : r = s := by
  revert h
  cases r <;> cases s <;> decide

/-! ## Tokens -/

namespace Token

variable {rest rest' : Bytes}

/-- The length of the text in a token can be written in four bytes. -/
def Fits : Token → Prop
  | .text s | .backReference s => (utf8 s).length < 2 ^ 32
  | .digest _ | .storage _ => True

instance : DecidablePred Fits
  | .text _ | .backReference _ => Nat.decLt _ _
  | .digest _ | .storage _ => .isTrue trivial

theorem announced_append_inj {tag tag' : UInt8} {s s' : String} (hs : (utf8 s).length < 2 ^ 32)
    (hs' : (utf8 s').length < 2 ^ 32) (h : announced tag s ++ rest = announced tag' s' ++ rest') :
    s = s' ∧ rest = rest' := by
  simp only [announced, cons_append, append_assoc, cons.injEq] at h
  obtain ⟨hlength, h⟩ := append_inj h.2 (by simp)
  obtain ⟨hbytes, hrest⟩ := append_inj h (bigEndian_inj hs hs' hlength)
  exact ⟨utf8_inj hbytes, hrest⟩

theorem digest_append_inj {d d' : Digest} (h : d.toBytes ++ rest = d'.toBytes ++ rest') :
    d = d' ∧ rest = rest' := by
  obtain ⟨hbytes, hrest⟩ := append_inj h (by simp)
  refine ⟨?_, hrest⟩
  rw [← d.ofBytes_toBytes, hbytes, d'.ofBytes_toBytes]

/-- The first byte of a token announces its kind. -/
def tag : Token → UInt8
  | .text _ => 0x01
  | .digest _ => 0x02
  | .storage _ => 0x03
  | .backReference _ => 0x04

theorem toBytes_eq_cons (t : Token) : ∃ body, t.toBytes = t.tag :: body := by
  cases t <;> exact ⟨_, rfl⟩

/-- Tokens can be told apart at the front of a byte string. -/
theorem toBytes_append_inj {t t' : Token} (ht : t.Fits) (ht' : t'.Fits)
    (h : t.toBytes ++ rest = t'.toBytes ++ rest') : t = t' ∧ rest = rest' := by
  have htag : t.tag = t'.tag := by
    obtain ⟨body, hbody⟩ := t.toBytes_eq_cons
    obtain ⟨body', hbody'⟩ := t'.toBytes_eq_cons
    rw [hbody, hbody'] at h
    exact (cons.inj h).1
  cases t with
  | text s =>
    cases t' with
    | text s' =>
      obtain ⟨rfl, hrest⟩ := announced_append_inj ht ht' h
      exact ⟨rfl, hrest⟩
    | digest | storage | backReference => exact absurd htag (by simp [tag])
  | digest d =>
    cases t' with
    | digest d' =>
      obtain ⟨rfl, hrest⟩ := digest_append_inj (cons.inj h).2
      exact ⟨rfl, hrest⟩
    | text | storage | backReference => exact absurd htag (by simp [tag])
  | storage s =>
    cases t' with
    | storage s' =>
      obtain ⟨hs, hrest⟩ := cons.inj (cons.inj h).2
      exact ⟨congrArg Token.storage (Storage.tag_inj hs), hrest⟩
    | text | digest | backReference => exact absurd htag (by simp [tag])
  | backReference s =>
    cases t' with
    | backReference s' =>
      obtain ⟨rfl, hrest⟩ := announced_append_inj ht ht' h
      exact ⟨rfl, hrest⟩
    | text | digest | storage => exact absurd htag (by simp [tag])

/-- Bytes stand for one list of tokens. -/
theorem bytes_inj {ts' : List Token} (hts : ∀ t ∈ ts, t.Fits) (hts' : ∀ t ∈ ts', t.Fits)
    (h : bytes ts = bytes ts') : ts = ts' := by
  induction ts generalizing ts' with
  | nil =>
    cases ts' with
    | nil => rfl
    | cons t' ts' =>
      obtain ⟨body, hbody⟩ := t'.toBytes_eq_cons
      simp [bytes, hbody] at h
  | cons t ts ih =>
    cases ts' with
    | nil =>
      obtain ⟨body, hbody⟩ := t.toBytes_eq_cons
      simp [bytes, hbody] at h
    | cons t' ts' =>
      obtain ⟨hfirst, hmore⟩ := forall_mem_cons.mp hts
      obtain ⟨hfirst', hmore'⟩ := forall_mem_cons.mp hts'
      obtain ⟨rfl, hrest⟩ := toBytes_append_inj hfirst hfirst' h
      rw [ih hmore hmore' hrest]

end Token

/-! ## The structure of types -/

/-- Lists of pairs are compared pair by pair, also when each pair is written as two entries. -/
theorem flatMap_pair_eq_iff {f g : α → γ} {f' g' : β → γ} {l : List α} {l' : List β} :
    (l.flatMap fun a => [f a, g a]) = (l'.flatMap fun b => [f' b, g' b]) ↔
      l.map (fun a => (f a, g a)) = l'.map fun b => (f' b, g' b) := by
  induction l generalizing l' with
  | nil => cases l' <;> simp
  | cons a l ih => cases l' <;> simp [ih, and_assoc]

/-- Entries are compared as well after a map that identifies none. -/
theorem map_comp_eq_iff {h : β → γ} (hinj : Function.Injective h) {f : α → β} {f' : δ → β}
    {l : List α} {l' : List δ} :
    l.map (fun a => h (f a)) = l'.map (fun d => h (f' d)) ↔ l.map f = l'.map f' := by
  rw [← (map_injective_iff.mpr hinj).eq_iff, map_map, map_map]
  rfl

namespace TypeKind

/-- Two kinds of type have the same structure one level deep, with the members of the one seen
through `view` and those of the other through `view'`. Labels, annotations, the names and the
defaults of parameters, and the members of interfaces do not count. -/
def Alike (view view' : TypeId → β) : TypeKind → TypeKind → Prop
  | .enum values, .enum values' =>
    values.map (fun v => (v.ident, v.ordinal)) = values'.map fun v => (v.ident, v.ordinal)
  | .record slots, .record slots' =>
    slots.map (fun s => (s.ident, view s.type)) = slots'.map fun s => (s.ident, view' s.type)
  | .sequence element, .sequence element' =>
    element.ident = element'.ident ∧ view element.type = view' element'.type
  | .function s, .function s' =>
    s.parameters.map (fun p => view p.type) = s'.parameters.map (fun p => view' p.type) ∧
      view s.result = view' s'.result
  | kind, kind' => kind.storage = kind'.storage

variable {text : String → β} {view view' : TypeId → β}

/-- Being alike says that the storage classes are the same and the pieces of structure look the
same. -/
theorem alike_iff (htext : Function.Injective text) (kind kind' : TypeKind) :
    kind.Alike view view' kind' ↔ kind.storage = kind'.storage ∧
      kind.structureParts.map (StructurePart.seen text view) =
        kind'.structureParts.map (StructurePart.seen text view') := by
  unfold Alike
  split
  · next values values' =>
    have hinj : Function.Injective
        fun v : String × Int64 => (text v.1, text (toString v.2.toInt)) := by
      rintro ⟨ident, ordinal⟩ ⟨ident', ordinal'⟩ h
      obtain ⟨hident, hordinal⟩ := Prod.mk.inj h
      exact Prod.ext (htext hident) (Int64.toInt_inj.mp (Int.repr_inj.mp (htext hordinal)))
    simp only [structureParts, map_flatMap, map_cons, map_nil, StructurePart.seen,
      flatMap_pair_eq_iff, storage, true_and]
    exact (map_comp_eq_iff hinj).symm
  · next slots slots' =>
    have hinj : Function.Injective fun s : String × β => (text s.1, s.2) := by
      rintro ⟨ident, member⟩ ⟨ident', member'⟩ h
      obtain ⟨hident, hmember⟩ := Prod.mk.inj h
      exact Prod.ext (htext hident) hmember
    simp only [structureParts, map_flatMap, map_cons, map_nil, StructurePart.seen,
      flatMap_pair_eq_iff, storage, true_and]
    exact (map_comp_eq_iff hinj).symm
  · simp [structureParts, StructurePart.seen, storage, htext.eq_iff]
  · simp [structureParts, StructurePart.seen, storage, Function.comp_def]
  · next henum hrecord hsequence hfunction =>
    refine iff_self_and.mpr fun hstorage => ?_
    cases kind with
    | enum values =>
      cases kind' with
      | enum values' => exact (henum values values' rfl rfl).elim
      | _ => contradiction
    | record slots =>
      cases kind' with
      | record slots' => exact (hrecord slots slots' rfl rfl).elim
      | _ => contradiction
    | sequence element =>
      cases kind' with
      | sequence element' => exact (hsequence element element' rfl rfl).elim
      | _ => contradiction
    | function s =>
      cases kind' with
      | function s' => exact (hfunction s s' rfl rfl).elim
      | _ => contradiction
    | _ => cases kind' <;> simp_all [storage, structureParts]

end TypeKind

/-! ## Types -/

namespace Model

variable {m m' : Model} {active active' : List TypeId} {id id' : TypeId} {info : TypeInfo}

theorem type_eq_ok_iff : m.type id = .ok info ↔ m.type? id = some info := by
  unfold type
  cases m.type? id <;> simp

theorem typeTokens_of_type? (hinfo : m.type? id = some info) :
    m.typeTokens active id =
      (info.kind.structureParts.mapM (m.partToken (id :: active))).map info.tokens := by
  rw [typeTokens, type_eq_ok_iff.mpr hinfo]
  show (mapM (m.partToken (id :: active)) info.kind.structureParts >>= _) = _
  cases info.kind.structureParts.mapM (m.partToken (id :: active)) <;> rfl

theorem typeTokens_eq_ok_iff :
    m.typeTokens active id = .ok ts ↔ ∃ info, m.type? id = some info ∧
      ∃ parts : List Token, info.kind.structureParts.map (m.partToken (id :: active)) =
        parts.map .ok ∧ info.tokens parts = ts := by
  constructor
  · intro h
    obtain ⟨info, hinfo, -⟩ := bind_eq_ok_iff.mp h
    rw [typeTokens_of_type? (type_eq_ok_iff.mp hinfo)] at h
    obtain ⟨parts, hparts, htokens⟩ := map_eq_ok_iff.mp h
    exact ⟨info, type_eq_ok_iff.mp hinfo, parts, mapM_eq_ok_iff.mp hparts, htokens⟩
  · rintro ⟨info, hinfo, parts, hparts, htokens⟩
    rw [typeTokens_of_type? hinfo]
    exact map_eq_ok_iff.mpr ⟨parts, mapM_eq_ok_iff.mpr hparts, htokens⟩

/-- A type that is being digested already counts by its name. -/
theorem memberToken_of_mem (hinfo : m.type? id = some info) (h : id ∈ active) :
    m.memberToken active id = .ok (.backReference info.qualifiedName) := by
  rw [memberToken]
  split
  · next hnone => simp [hinfo] at hnone
  · next info' hsome =>
    obtain rfl : info = info' := Option.some.inj (hinfo.symm.trans hsome)
    rw [dif_pos h]

/-- Any other type counts by the digest of its tokens. -/
theorem memberToken_of_not_mem (h : id ∉ active) :
    m.memberToken active id = (m.typeTokens active id).map fun ts => .digest (.ofTokens ts) := by
  rw [memberToken]
  split
  · next hnone =>
    rw [typeTokens, type, hnone]
    rfl
  · next info hinfo =>
    rw [dif_neg h, typeTokens_of_type? hinfo]
    show (mapM (m.partToken (id :: active)) info.kind.structureParts >>= _) = _
    cases info.kind.structureParts.mapM (m.partToken (id :: active)) <;> rfl

/-- Members count by a digest or by a name. -/
theorem memberToken_cases {t : Token} (h : m.memberToken active id = .ok t) :
    (∃ d, t = .digest d) ∨ ∃ name, t = .backReference name := by
  by_cases hmem : id ∈ active
  · rw [memberToken] at h
    split at h
    · contradiction
    · rw [dif_pos hmem] at h
      exact .inr ⟨_, (Except.ok.inj h).symm⟩
  · rw [memberToken_of_not_mem hmem] at h
    obtain ⟨ts, hts, rfl⟩ := map_eq_ok_iff.mp h
    exact .inl ⟨_, rfl⟩

/-- Tokens stand for one type, up to what its digest leaves out. -/
theorem alike_of_typeTokens (h : m.typeTokens active id = .ok ts)
    (h' : m'.typeTokens active' id' = .ok ts) :
    ∃ info info', m.type? id = some info ∧ m'.type? id' = some info' ∧
      info.storage = info'.storage ∧ info.qualifiedName = info'.qualifiedName ∧
      info.kind.Alike (m.memberToken (id :: active)) (m'.memberToken (id' :: active')) info'.kind := by
  obtain ⟨info, hinfo, parts, hparts, rfl⟩ := typeTokens_eq_ok_iff.mp h
  obtain ⟨info', hinfo', parts', hparts', htokens⟩ := typeTokens_eq_ok_iff.mp h'
  simp only [TypeInfo.tokens, cons.injEq, Token.storage.injEq, Token.text.injEq,
    true_and] at htokens
  obtain ⟨hstorage, hname, rfl⟩ := htokens
  refine ⟨info, info', hinfo, hinfo', hstorage.symm, hname.symm, ?_⟩
  have htext : Function.Injective fun s => (Except.ok (Token.text s) : Except SchemaError Token) :=
    fun s s' hs => Token.text.inj (Except.ok.inj hs)
  exact (TypeKind.alike_iff htext info.kind info'.kind).mpr ⟨hstorage.symm, hparts.trans hparts'.symm⟩

/-! ## Operations -/

theorem operationTokens_inj {role role' : Role} {interface interface' member member' : String}
    {args args' : List Digest} {result result' : Digest}
    (h : operationTokens role interface member args result =
      operationTokens role' interface' member' args' result') :
    role = role' ∧ interface = interface' ∧ member = member' ∧ args = args' ∧
      result = result' := by
  simp only [operationTokens, cons.injEq, Token.text.injEq, true_and] at h
  obtain ⟨hrole, hinterface, hmember, htypes⟩ := h
  obtain ⟨hargs, hresult⟩ := append_inj' htypes rfl
  have hdigest : Function.Injective Token.digest := fun _ _ => Token.digest.inj
  exact ⟨Role.name_inj hrole, hinterface, hmember, map_injective_iff.mpr hdigest hargs,
    hdigest (singleton_inj.mp hresult)⟩

/-- Operations and types are told apart by the first text. -/
theorem bytes_operationTokens_ne (h : m.typeTokens active id = .ok ts) (role : Role)
    (interface member : String) (args : List Digest) (result : Digest) :
    Token.bytes (operationTokens role interface member args result) ≠ Token.bytes ts := by
  obtain ⟨info, -, parts, -, rfl⟩ := typeTokens_eq_ok_iff.mp h
  intro hbytes
  have hop : (Token.text "aida-op/1").Fits := by decide
  have htype : (Token.text "aida-type/1").Fits := by decide
  have hfirst := (Token.toBytes_append_inj hop htype hbytes).1
  exact absurd (Token.text.inj hfirst) (by decide)

/-- **What is digested can be read off the bytes that are hashed**, when all texts are shorter than
`2 ^ 32` bytes. The bytes of an operation give its role, the names of its interface and member, and
the digests of its types. The bytes of a type, digested alone or inside others, give its storage
class, its qualified name and its structure one level deep, where a member stands for its digest
or, when it is being digested already, for its name. No bytes stand for an operation and a type. -/
theorem hashed_bytes_determine :
    (∀ (role role' : Role) (interface interface' member member' : String)
        (args args' : List Digest) (result result' : Digest),
      (∀ t ∈ operationTokens role interface member args result, t.Fits) →
      (∀ t ∈ operationTokens role' interface' member' args' result', t.Fits) →
      Token.bytes (operationTokens role interface member args result) =
        Token.bytes (operationTokens role' interface' member' args' result') →
      role = role' ∧ interface = interface' ∧ member = member' ∧ args = args' ∧
        result = result') ∧
    (∀ (m m' : Model) (active active' : List TypeId) (id id' : TypeId) (ts ts' : List Token),
      m.typeTokens active id = .ok ts → m'.typeTokens active' id' = .ok ts' →
      (∀ t ∈ ts, t.Fits) → (∀ t ∈ ts', t.Fits) → Token.bytes ts = Token.bytes ts' →
      ∃ info info', m.type? id = some info ∧ m'.type? id' = some info' ∧
        info.storage = info'.storage ∧ info.qualifiedName = info'.qualifiedName ∧
        info.kind.Alike (m.memberToken (id :: active)) (m'.memberToken (id' :: active'))
          info'.kind) ∧
    (∀ (m : Model) (active : List TypeId) (id : TypeId) (t : Token),
      m.memberToken active id = .ok t →
      (∃ d, t = .digest d) ∨ ∃ name, t = .backReference name) ∧
    (∀ (m : Model) (active : List TypeId) (id : TypeId) (ts : List Token) (role : Role)
        (interface member : String) (args : List Digest) (result : Digest),
      m.typeTokens active id = .ok ts →
      Token.bytes (operationTokens role interface member args result) ≠ Token.bytes ts) := by
  refine ⟨?_, ?_, fun m active id t h => memberToken_cases h, ?_⟩
  · intro role role' interface interface' member member' args args' result result' hfits hfits' h
    exact operationTokens_inj (Token.bytes_inj hfits hfits' h)
  · intro m m' active active' id id' ts ts' hts hts' hfits hfits' h
    obtain rfl := Token.bytes_inj hfits hfits' h
    exact alike_of_typeTokens hts hts'
  · intro m active id ts role interface member args result h
    exact bytes_operationTokens_ne h role interface member args result

/-- A model whose last type is a record that refers to itself. -/
def linked (before : List TypeInfo) (annotations : Annotations) : Model where
  types := before ++ [⟨"Node", [], .record [⟨"next", ⟨before.length⟩, annotations⟩]⟩]
  namespaces := []

/-- The tokens of that record. -/
def linkedTokens : List Token :=
  [.text "aida-type/1", .storage .record, .text "Node", .text "next", .backReference "Node"]

theorem typeTokens_linked (before : List TypeInfo) (annotations : Annotations) :
    (linked before annotations).typeTokens [] ⟨before.length⟩ = .ok linkedTokens := by
  have hinfo : (linked before annotations).type? ⟨before.length⟩ =
      some ⟨"Node", [], .record [⟨"next", ⟨before.length⟩, annotations⟩]⟩ := by
    simp [linked, type?]
  have hself : (linked before annotations).memberToken [⟨before.length⟩] ⟨before.length⟩ =
      .ok (.backReference "Node") := memberToken_of_mem hinfo mem_cons_self
  refine typeTokens_eq_ok_iff.mpr ⟨_, hinfo, [.text "next", .backReference "Node"], ?_, rfl⟩
  simp [TypeKind.structureParts, partToken, StructurePart.seen, hself]

/-- The record has one input, whatever stands before it and however its slot is annotated, and this
input gives what it is made of. -/
theorem hashed_bytes_determine_linked :
    (linked [] {}).typeTokens [] ⟨0⟩ = .ok linkedTokens ∧
      (linked [⟨"void", [], .void⟩] { label := some "Next" }).typeTokens [] ⟨1⟩ = .ok linkedTokens ∧
      (∀ t ∈ linkedTokens, t.Fits) ∧
      (∃ info info', (linked [] {}).type? ⟨0⟩ = some info ∧
        (linked [⟨"void", [], .void⟩] { label := some "Next" }).type? ⟨1⟩ = some info' ∧
        info.storage = info'.storage ∧ info.qualifiedName = info'.qualifiedName ∧
        info.kind.Alike ((linked [] {}).memberToken [⟨0⟩])
          ((linked [⟨"void", [], .void⟩] { label := some "Next" }).memberToken [⟨1⟩]) info'.kind) ∧
      Token.bytes (operationTokens .call "Node" "next" [] .zero) ≠ Token.bytes linkedTokens := by
  have hfirst := typeTokens_linked [] {}
  have hsecond := typeTokens_linked [⟨"void", [], .void⟩] { label := some "Next" }
  have hfits : ∀ t ∈ linkedTokens, t.Fits := by decide
  obtain ⟨-, htypes, -, hapart⟩ := hashed_bytes_determine
  exact ⟨hfirst, hsecond, hfits, htypes _ _ _ _ _ _ _ _ hfirst hsecond hfits hfits rfl,
    hapart _ _ _ _ _ _ _ _ _ hfirst⟩

end Model

end Remoting

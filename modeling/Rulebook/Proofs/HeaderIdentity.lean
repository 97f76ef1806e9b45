import Rulebook.Identity
import Rulebook.Proofs.Base64
import Rulebook.Proofs.JsonRecords

/-!
# The identity that a header gives

A header gives an identity through three layers: base64, a document in JSON, and the fields of two
or three records in it. What the fields claim is said here layer by layer (`Carries`): the bytes for
which the header is the text, the value of which they are a document, and in this value the records,
each given as an object or as a list. A field in which a text is meant holds a text, a number, which
means its own text, or any other value that can be read to the end, which means the empty text; to
be absent means the same.

The identity follows from the claims alone (`Claims.identity`), and it names somebody when one of
the three fields does. A header that carries claims gives this identity or is refused because it
names nobody, and every other header is refused as malformed (`ofHeader_exact`).
-/

namespace Rulebook.Identity

open Rulebook.Document
open Rulebook.Json (Document Focus Node maxDepth)

/-! ## Fields in which a text is meant -/

/-- **What a value means where a text is meant.** -/
def plainText : Node → String
  | .text (.ok value) => value
  | .number (.ok (.integer value)) => String.ofList (Json.integerChars value)
  | .number (.ok (.float value)) => value.text .json
  | _ => ""

/-- **What a field means in which a text is meant**, `depth` levels above the deepest. -/
inductive FieldText (depth : Nat) : Option Node → String → Prop where
  /-- Where nothing is given, the empty text is meant. -/
  | absent : FieldText depth none ""
  /-- A value must be one that can be read to the end. -/
  | given {node : Node} (h : node.Readable depth) : FieldText depth (some node) (plainText node)

/-- The data that a value is read as mean what the value means. -/
theorem textOf_of_readDataAt {depth : Nat} {node : Node} {data : Data}
    (h : (Json.readDataAt depth (Focus.mk node depth)).Yields data) :
    textOf data = plainText node := by
  have hreadable := Json.readable_of_readDataAt h
  rw [Json.readDataAt.eq_def] at h
  cases hreadable with
  | null | flag | text =>
    cases Reading.Yields.pure_iff.1 h
    rfl
  | number _ value =>
    cases value <;>
    · cases Reading.Yields.pure_iff.1 h
      rfl
  | list =>
    obtain ⟨_, -, h⟩ := Reading.Yields.of_bind h
    obtain ⟨_, -, rfl⟩ := h.of_map
    rfl
  | object =>
    obtain ⟨_, -, h⟩ := Reading.Yields.of_bind h
    obtain ⟨_, -, h⟩ := h.of_bind
    obtain ⟨_, -, h⟩ := h.of_bind
    cases Reading.Yields.pure_iff.1 h
    rfl

section Texts

variable {depth : Nat} {node : Node} {text : String}

theorem fieldText_of_yields (h : (readTextOf (Focus.mk node depth)).Yields text) :
    FieldText depth (some node) text := by
  obtain ⟨data, hdata, rfl⟩ := h.of_map
  rw [textOf_of_readDataAt hdata]
  exact .given (Json.readable_of_readDataAt hdata)

theorem FieldText.read (h : FieldText depth (some node) text) :
    readTextOf (Focus.mk node depth) = pure text := by
  cases h with
  | given h =>
    obtain ⟨data, hdata⟩ := Json.exists_readDataAt h
    have htext : textOf data = plainText node :=
      textOf_of_readDataAt (hdata ▸ Reading.Yields.pure_iff.2 rfl)
    show textOf <$> Json.readDataAt depth _ = _
    rw [hdata, map_pure, htext]

end Texts

/-- **A field of a record in which a text is meant.** -/
def textPart {ρ : Type} (name : String) (set : String → ρ → ρ) (get : ρ → String) : Part Focus ρ :=
  ⟨String, name, false, readTextOf, set, get⟩

section TextParts

variable {ρ : Type} {name : String} {set : String → ρ → ρ} {get : ρ → String} {given : Option Node}
  {depth : Nat} {start result : ρ}

theorem fieldText_of_holds (hstart : get start = "")
    (h : (textPart name set get).Holds (given.map (Focus.mk · depth)) start result) :
    FieldText depth given (get result) := by
  cases given with
  | none =>
    rw [show get result = "" from Eq.trans h hstart]
    exact .absent
  | some node => exact fieldText_of_yields h

theorem FieldText.readable (hstart : get start = "") (h : FieldText depth given (get result)) :
    (textPart name set get).Readable (given.map (Focus.mk · depth)) start result := by
  cases given with
  | none =>
    refine ⟨rfl, Eq.trans ?_ hstart.symm⟩
    generalize htext : get result = text at h
    cases h
    exact htext
  | some node => exact h.read

end TextParts

/-! ## The records of a token -/

/-- **What the deeper level says.** -/
inductive InnerOrg (depth : Nat) : Option Node → Option String → Prop where
  /-- It may be missing. -/
  | absent : InnerOrg depth none none
  /-- It may be given as nothing. -/
  | null : InnerOrg depth (some .null) none
  /-- Otherwise it is a record with the number of an organization. -/
  | given {node : Node} {fields : String → Option Node} {orgId : String}
    (hfields : node.Gives ["org_id"] fields) (horg : FieldText depth (fields "org_id") orgId) :
    InnerOrg depth (some node) (some orgId)

/-- **What the value of the field for the identity says**, lying two levels deep. -/
inductive States : Node → Claims → Prop where
  /-- It is a record with three fields. -/
  | intro {node : Node} {fields : String → Option Node} {claims : Claims}
    (hfields : node.Gives ["account_number", "org_id", "internal"] fields)
    (haccount : FieldText 125 (fields "account_number") claims.accountNumber)
    (horg : FieldText 125 (fields "org_id") claims.orgId)
    (hinner : InnerOrg 124 (fields "internal") claims.innerOrgId) : States node claims

/-- **What the value of a document says**: what its field for the identity does. -/
inductive Token : Node → Claims → Prop where
  /-- It is a record that has this field. -/
  | intro {node identity : Node} {fields : String → Option Node} {claims : Claims}
    (hfields : node.Gives ["identity"] fields) (hidentity : fields "identity" = some identity)
    (hclaims : States identity claims) : Token node claims

/-- The part of the deeper level. -/
def innerParts : List (Part Focus String) := [textPart "org_id" (fun orgId _ => orgId) id]

theorem layout_innerParts : Layout innerParts where
  names := by simp [innerParts]
  get_set := by simp [innerParts, textPart]
  get_set_of_ne := by simp [innerParts]
  ext record other h := by simpa [innerParts, textPart] using h

/-- The parts of the record for the identity. -/
def claimsParts : List (Part Focus Claims) := [
  textPart "account_number" (fun accountNumber claims => { claims with accountNumber })
    (·.accountNumber),
  textPart "org_id" (fun orgId claims => { claims with orgId }) (·.orgId),
  ⟨Option String, "internal", false, readOption readInner,
    fun innerOrgId claims => { claims with innerOrgId }, (·.innerOrgId)⟩]

theorem layout_claimsParts : Layout claimsParts where
  names := by simp [claimsParts, textPart]
  get_set := by simp [claimsParts, textPart]
  get_set_of_ne := by simp [claimsParts, textPart]
  ext record other h := by
    cases record
    cases other
    simpa [claimsParts, textPart] using h

/-- The part of a document. -/
def tokenParts : List (Part Focus Claims) := [
  ⟨Claims, "identity", true, readClaims, fun claims _ => claims, id⟩]

theorem layout_tokenParts : Layout tokenParts where
  names := by simp [tokenParts]
  get_set := by simp [tokenParts]
  get_set_of_ne := by simp [tokenParts]
  ext record other h := by simpa [tokenParts] using h

/-! ### Reading the records -/

section Records

variable {node : Node} (hnode : node.skipFlaw? = none)
include hnode

theorem innerOrg_of_yields {depth : Nat} {innerOrgId : Option String}
    (h : (readOption readInner (Focus.mk node (depth + 1))).Yields innerOrgId) :
    InnerOrg depth (some node) innerOrgId := by
  obtain ⟨found, hfound, h⟩ := h.of_bind
  replace hfound : (Focus.mk node (depth + 1)).optional.Yields found := hfound
  rw [Focus.optional] at hfound
  dsimp only at hfound
  split at hfound
  · cases Reading.Yields.pure_iff.1 hfound
    cases Reading.Yields.pure_iff.1 h
    exact .null
  · cases Reading.Yields.pure_iff.1 hfound
    obtain ⟨orgId, hread, rfl⟩ := Reading.Yields.of_map h
    obtain ⟨fields, hfields, hparts⟩ := Json.gives_of_readRecord layout_innerParts hnode hread
    exact .given hfields (fieldText_of_holds rfl (hparts _ (List.mem_singleton_self _)).2)

theorem InnerOrg.read {depth : Nat} {innerOrgId : Option String}
    (h : InnerOrg depth (some node) innerOrgId) :
    readOption readInner (Focus.mk node (depth + 1)) = pure innerOrgId := by
  cases h with
  | null => rfl
  | @given _ fields orgId hfields horg =>
    have hread : readInner (Focus.mk node (depth + 1)) = pure orgId :=
      Json.readRecord_of_gives layout_innerParts hnode hfields
        (List.forall_mem_singleton.2 (FieldText.readable rfl horg))
    have hsome : Source.optional (Focus.mk node (depth + 1))
        = pure (some (Focus.mk node (depth + 1))) := by
      cases hfields <;> rfl
    rw [readOption, hsome, pure_bind]
    show some <$> readInner _ = _
    rw [hread, map_pure]

theorem states_of_yields {claims : Claims} (h : (readClaims (Focus.mk node 126)).Yields claims) :
    States node claims := by
  obtain ⟨fields, hfields, hparts⟩ := Json.gives_of_readRecord layout_claimsParts hnode h
  simp only [claimsParts, List.forall_mem_cons] at hparts
  obtain ⟨⟨-, haccount⟩, ⟨-, horg⟩, ⟨-, hinner⟩, -⟩ := hparts
  refine .intro hfields (fieldText_of_holds rfl haccount) (fieldText_of_holds rfl horg) ?_
  cases hfield : fields "internal" with
  | none =>
    rw [hfield] at hinner
    rw [show claims.innerOrgId = none from hinner]
    exact .absent
  | some value =>
    rw [hfield] at hinner
    exact innerOrg_of_yields (hfields.skipFlaw? hnode hfield) hinner

theorem States.read {claims : Claims} (h : States node claims) :
    readClaims (Focus.mk node 126) = pure claims := by
  cases h with
  | @intro fields _ hfields haccount horg hinner =>
    refine Json.readRecord_of_gives layout_claimsParts hnode hfields ?_
    simp only [claimsParts, List.forall_mem_cons]
    refine ⟨haccount.readable rfl, horg.readable rfl, ?_, fun _ h => nomatch h⟩
    cases hfield : fields "internal" with
    | none =>
      rw [hfield] at hinner
      refine ⟨rfl, ?_⟩
      generalize hnone : claims.innerOrgId = innerOrgId at hinner
      cases hinner
      exact hnone
    | some value =>
      rw [hfield] at hinner
      exact hinner.read (hfields.skipFlaw? hnode hfield)

/-- **What is read of the value of a document is what it says.** -/
theorem readToken_iff {claims : Claims} :
    (readToken (Focus.mk node maxDepth)).value = .ok claims ↔ Token node claims := by
  constructor
  · intro h
    obtain ⟨fields, hfields, hparts⟩ :=
      Json.gives_of_readRecord layout_tokenParts hnode (Reading.Yields.of_value h)
    obtain ⟨hneeded, hholds⟩ := hparts _ (List.mem_singleton_self _)
    cases hfield : fields "identity" with
    | none =>
      cases hneeded hfield
    | some identity =>
      rw [hfield] at hholds
      exact .intro hfields hfield (states_of_yields (hfields.skipFlaw? hnode hfield) hholds)
  · rintro ⟨hfields, hidentity, hclaims⟩
    have hread : readToken (Focus.mk node maxDepth) = pure claims := by
      refine Json.readRecord_of_gives layout_tokenParts hnode hfields
        (List.forall_mem_singleton.2 ?_)
      rw [hidentity]
      exact hclaims.read (hfields.skipFlaw? hnode hidentity)
    rw [hread]
    rfl

end Records

/-! ## Claims and the identity they amount to -/

namespace Claims

/-- The organization that is claimed: the outer one or, where that is empty, the deeper one. -/
def org (claims : Claims) : String :=
  if claims.orgId = "" then claims.innerOrgId.getD "" else claims.orgId

/-- **The identity that is claimed.** -/
def identity (claims : Claims) : Identity := ⟨claims.accountNumber, claims.org⟩

/-- **Whether the claims name somebody**: one of the three fields is not empty. -/
def NameSomebody (claims : Claims) : Prop :=
  claims.accountNumber ≠ "" ∨ claims.orgId ≠ "" ∨ claims.innerOrgId.getD "" ≠ ""

variable {claims : Claims}

/-- An organization is claimed at one of the two levels. -/
theorem org_ne_empty_iff :
    claims.org ≠ "" ↔ claims.orgId ≠ "" ∨ claims.innerOrgId.getD "" ≠ "" := by
  rw [org]
  split <;> simp [*]

theorem ofClaims_eq : ofClaims claims = if claims.accountNumber = "" ∧ claims.org = ""
    then .error .empty else .ok claims.identity := by
  simp only [ofClaims, identity, org, String.isEmpty_iff, Bool.and_eq_true]
  rfl

theorem ofClaims_of_nameSomebody (h : claims.NameSomebody) :
    ofClaims claims = .ok claims.identity := by
  rw [ofClaims_eq, if_neg]
  rintro ⟨haccount, horg⟩
  exact h.elim (· haccount) fun h => org_ne_empty_iff.2 h horg

theorem ofClaims_of_not_nameSomebody (h : ¬ claims.NameSomebody) :
    ofClaims claims = .error .empty := by
  obtain ⟨haccount, horg⟩ := not_or.1 h
  rw [← org_ne_empty_iff] at horg
  rw [ofClaims_eq, if_pos ⟨Classical.not_not.1 haccount, Classical.not_not.1 horg⟩]

end Claims

/-! ## Headers -/

/-- **A header carries claims**: without the blank space around it, it is the text in base64 of a
document whose value says them. -/
def Carries (header : String) (claims : Claims) : Prop :=
  ∃ bytes node, Text.trim header = Base64.text bytes ∧ Document bytes node ∧ Token node claims

theorem carries_iff {header : String} {claims : Claims} : Carries header claims
    ↔ ∃ bytes, Base64.decode (Text.encode (Text.trim header)) = .ok bytes
      ∧ Json.readBytes readToken bytes = .ok claims := by
  refine exists_congr fun bytes => ?_
  rw [Base64.decode_encode_iff, Json.readBytes_iff, exists_and_left]
  refine and_congr_right fun _ => exists_congr fun node => and_congr_right fun hdocument => ?_
  exact (readToken_iff hdocument.skipFlaw?).symm

theorem ofHeader_of_carries {header : String} {claims : Claims} (h : Carries header claims) :
    ofHeader header = ofClaims claims := by
  obtain ⟨bytes, hbytes, hclaims⟩ := carries_iff.1 h
  rw [ofHeader, hbytes]
  dsimp only
  rw [hclaims]

theorem ofHeader_of_not_carries {header : String} (h : ∀ claims, ¬ Carries header claims) :
    ∃ reason, ofHeader header = .error (.malformed reason) := by
  cases hbytes : Base64.decode (Text.encode (Text.trim header)) with
  | error flaw =>
    refine ⟨flaw.message, ?_⟩
    rw [ofHeader, hbytes]
    rfl
  | ok bytes =>
    cases hclaims : Json.readBytes readToken bytes with
    | error fault =>
      refine ⟨fault.message, ?_⟩
      rw [ofHeader, hbytes]
      dsimp only
      rw [hclaims]
      rfl
    | ok claims => exact absurd (carries_iff.2 ⟨bytes, hbytes, hclaims⟩) (h claims)

/-- **What becomes of a header.** -/
inductive Outcome (header : String) : Except Refusal Identity → Prop where
  /-- It carries claims that name somebody. -/
  | named {claims : Claims} (h : Carries header claims) (hname : claims.NameSomebody) :
    Outcome header (.ok claims.identity)
  /-- It carries claims that name nobody. -/
  | empty {claims : Claims} (h : Carries header claims) (hname : ¬ claims.NameSomebody) :
    Outcome header (.error .empty)
  /-- It carries no claims. -/
  | malformed {reason : String} (h : ∀ claims, ¬ Carries header claims) :
    Outcome header (.error (.malformed reason))

theorem outcome_ofHeader (header : String) : Outcome header (ofHeader header) := by
  by_cases h : ∃ claims, Carries header claims
  · obtain ⟨claims, hcarries⟩ := h
    rw [ofHeader_of_carries hcarries]
    by_cases hname : claims.NameSomebody
    · rw [Claims.ofClaims_of_nameSomebody hname]
      exact .named hcarries hname
    · rw [Claims.ofClaims_of_not_nameSomebody hname]
      exact .empty hcarries hname
  · obtain ⟨reason, hreason⟩ := ofHeader_of_not_carries (not_exists.1 h)
    rw [hreason]
    exact .malformed (not_exists.1 h)

/-! ### Headers that are made of an identity -/

/-- **The document for an identity.** -/
def toData (identity : Identity) : Data :=
  .table [("identity", .table [("account_number", .text identity.accountNumber),
    ("org_id", .text identity.orgId)])]

/-- The claims that the document for an identity makes. -/
theorem token_toData (identity : Identity) :
    Token (Node.ofData identity.toData) ⟨identity.accountNumber, identity.orgId, none⟩ := by
  let members : List (String × Node) := [("account_number", .text (.ok identity.accountNumber)),
    ("org_id", .text (.ok identity.orgId))]
  have houter : Node.Gives ["identity"] (.ofMembers [("identity", .ofMembers members)])
      fun name => Table.find? name [("identity", Node.ofMembers members)] :=
    .object (List.pairwise_singleton ..)
  have hinner : Node.Gives ["account_number", "org_id", "internal"] (.ofMembers members)
      fun name => Table.find? name members :=
    .object (by simp [members, Once])
  have hclaims : States (.ofMembers members) ⟨identity.accountNumber, identity.orgId, none⟩ :=
    .intro hinner (.given (.text 125 _)) (.given (.text 125 _)) .absent
  exact .intro houter rfl hclaims

theorem kept_toData (identity : Identity) : Json.Kept maxDepth identity.toData := by
  refine .table (List.forall_mem_singleton.2 (.table ?_))
  simp [Json.Kept.text]

/-- **Either layout of the document for an identity makes a header that carries it**, with any blank
space around. -/
theorem carries_toData (identity : Identity) {document front back : String}
    (hdocument : document = Json.compact identity.toData ∨ document = Json.indented identity.toData)
    (hfront : Text.allBlank front = true) (hback : Text.allBlank back = true) :
    Carries (front ++ Base64.text (Text.encode document) ++ back)
      ⟨identity.accountNumber, identity.orgId, none⟩ := by
  have hspells : Node.Spells (Text.encode document) (Node.ofData identity.toData) := by
    rcases hdocument with rfl | rfl
    · exact Json.spells_encode_compact identity.kept_toData
    · exact Json.spells_encode_indented identity.kept_toData
  exact ⟨_, _, Base64.trim_surrounded hfront hback _, hspells.document, identity.token_toData⟩

/-! ### The identity of a header -/

/-- **A header gives the identity that it claims.** It gives one exactly when it carries claims that
name somebody, and this identity is then the one that is claimed; it is never empty. A header whose
claims name nobody is refused for that, and one that carries no claims is refused as malformed. The
document for an identity that is not empty, in either layout, makes a header that gives just this
identity, with any blank space around. -/
theorem ofHeader_exact :
    (∀ header identity, ofHeader header = .ok identity
      ↔ ∃ claims, Carries header claims ∧ claims.NameSomebody ∧ claims.identity = identity)
    ∧ (∀ header identity, ofHeader header = .ok identity →
      identity.accountNumber ≠ "" ∨ identity.orgId ≠ "")
    ∧ (∀ header, ofHeader header = .error .empty
      ↔ ∃ claims, Carries header claims ∧ ¬ claims.NameSomebody)
    ∧ (∀ header, (∃ reason, ofHeader header = .error (.malformed reason))
      ↔ ∀ claims, ¬ Carries header claims)
    ∧ ∀ (identity : Identity) (document front back : String),
      identity.accountNumber ≠ "" ∨ identity.orgId ≠ "" →
      document = Json.compact identity.toData ∨ document = Json.indented identity.toData →
      Text.allBlank front = true → Text.allBlank back = true →
      ofHeader (front ++ Base64.text (Text.encode document) ++ back) = .ok identity := by
  have hnamed {header : String} {claims : Claims} (h : Carries header claims)
      (hname : claims.NameSomebody) : ofHeader header = .ok claims.identity := by
    rw [ofHeader_of_carries h, Claims.ofClaims_of_nameSomebody hname]
  refine ⟨fun header identity => ⟨fun h => ?_, ?_⟩, fun header identity h => ?_,
    fun header => ⟨fun h => ?_, ?_⟩, fun header => ⟨?_, fun h => ofHeader_of_not_carries h⟩, ?_⟩
  · cases h ▸ outcome_ofHeader header with
    | named hcarries hname => exact ⟨_, hcarries, hname, rfl⟩
  · rintro ⟨claims, hcarries, hname, rfl⟩
    exact hnamed hcarries hname
  · cases h ▸ outcome_ofHeader header with
    | named _ hname => exact hname.imp_right Claims.org_ne_empty_iff.2
  · cases h ▸ outcome_ofHeader header with
    | empty hcarries hname => exact ⟨_, hcarries, hname⟩
  · rintro ⟨claims, hcarries, hname⟩
    rw [ofHeader_of_carries hcarries, Claims.ofClaims_of_not_nameSomebody hname]
  · rintro ⟨reason, h⟩
    cases h ▸ outcome_ofHeader header with
    | malformed hnone => exact hnone
  · intro identity document front back hne hdocument hfront hback
    have hidentity : Claims.identity ⟨identity.accountNumber, identity.orgId, none⟩ = identity := by
      rw [Claims.identity, Claims.org]
      split
      · rename_i hempty
        exact congrArg (Identity.mk identity.accountNumber) hempty.symm
      · rfl
    rw [hnamed (carries_toData identity hdocument hfront hback) (hne.imp_right .inl), hidentity]

/-- A document that gives the identity as a list, with nothing for the account and a number for the
organization. -/
def listedDocument : Data := .list [.list [.null, .integer 7]]

theorem carries_listedDocument :
    Carries (Base64.text (Text.encode (Json.compact listedDocument))) ⟨"", "7", none⟩ := by
  have hkept : Json.Kept maxDepth listedDocument := by
    have hseven : Json.Kept 125 (.integer 7) := .integer 125 (by decide) (by decide)
    refine .list (List.forall_mem_singleton.2 (.list ?_))
    simp [Json.Kept.null, hseven]
  have htrim := Base64.trim_surrounded (show Text.allBlank "" = true by decide)
    (show Text.allBlank "" = true by decide) (Text.encode (Json.compact listedDocument))
  rw [String.empty_append, String.append_empty] at htrim
  refine ⟨_, _, htrim, (Json.spells_encode_compact hkept).document, ?_⟩
  have houter : Node.Gives ["identity"] (Node.ofData listedDocument) _ := .list (by decide)
  have hinner : Node.Gives ["account_number", "org_id", "internal"]
      (.list [.null, .number (.ok (.integer 7))] none) _ := .list (by decide)
  exact .intro houter rfl (.intro hinner (.given (.null 125)) (.given (.number 125 _)) .absent)

/-- An identity without an account is given by the document that is made for it, and by the one that
is a list. -/
theorem ofHeader_exact_orgOnly :
    ofHeader (" " ++ Base64.text (Text.encode (Json.compact (toData ⟨"", "7"⟩))) ++ "\n")
        = .ok ⟨"", "7"⟩
      ∧ ofHeader (Base64.text (Text.encode (Json.compact listedDocument))) = .ok ⟨"", "7"⟩ := by
  obtain ⟨hok, -, -, -, hmade⟩ := ofHeader_exact
  refine ⟨hmade ⟨"", "7"⟩ _ " " "\n" (.inr (by decide)) (.inl rfl) (by decide) (by decide), ?_⟩
  exact (hok _ _).2 ⟨_, carries_listedDocument, .inr (.inl (by decide)), by decide⟩

end Rulebook.Identity

import Mathlib.Data.List.TakeWhile
import RsvpTe.PathRelay

/-!
# The attributes of an LSP along a chain of transit nodes

A node stores the priorities and the name of the SESSION_ATTRIBUTE, and whether and how a
FAST_REROUTE object asks for protection.  It does not store the flags: the sender computes them anew,
and it requests facility backup for every LSP that is to be protected.

`relayAttributes` is what one node makes of the attributes, `AttributeChain` follows them through any
number of nodes.
-/

namespace Rsvp

open Words

/-- What a PATH says about its LSP. -/
structure LspAttributes : Type where
  setupPrio : UInt8
  holdingPrio : UInt8
  flags : UInt8
  lspName : Bytes
  backup : FrrMode
  deriving DecidableEq

/-- The kind of backup that a FAST_REROUTE object asks for; facility backup goes first. -/
def MessageInfo.backup (info : MessageInfo) : FrrMode :=
  match info.objs .fastReroute with
  | none => .none
  | some o =>
    if (FastReroute.ofBytes o.data).flags &&& frrFlagFacility ≠ 0 then .facility
    else if (FastReroute.ofBytes o.data).flags &&& frrFlagOneToOne ≠ 0 then .oneToOne
    else .none

def MessageInfo.attributes (info : MessageInfo) : LspAttributes where
  setupPrio := (info.objs .sessAttr).elim 0 fun o => u8At o.data 0
  holdingPrio := (info.objs .sessAttr).elim 0 fun o => u8At o.data 1
  flags := (info.objs .sessAttr).elim 0 fun o => u8At o.data 2
  lspName := info.lspName
  backup := info.backup

/-- A name of 1 to 255 bytes other than NUL. -/
structure IsLspName (name : Bytes) : Prop where
  some : name ≠ []
  text : 0 ∉ name
  short : name.length ≤ 255

theorem IsLspName.cString_eq {name : Bytes} (isName : IsLspName name) : cString name = name := by
  refine List.takeWhile_eq_self_iff.mpr fun byte mem => ?_
  exact decide_eq_true fun zero => isName.text (zero ▸ mem)

theorem IsLspName.strdup_eq {name : Bytes} (isName : IsLspName name) (env : Env) :
    env.strdup name = if env.strdupOk then Option.some name else none := by
  rw [Env.strdup, isName.cString_eq]

/-- What a node that has stored `old` before sends on for the attributes of a PATH. -/
def relayAttributes (env : Env) (old : PsbState) (a : LspAttributes) : LspAttributes where
  setupPrio := a.setupPrio
  holdingPrio := a.holdingPrio
  flags := sessattrLocalProtDesired ||| sessattrSeStyle
  lspName := (env.strdup a.lspName).getD []
  backup :=
    if old.isBypassTunnel ∨ a.backup = .none ∧ old.frrMode = .none then .none else .facility

/-! ## One node -/

/-- The mode in a PSB is the one last asked for; a bypass tunnel has none of its own. -/
theorem frrOr_eq (info : MessageInfo) (old : PsbState) :
    (info.frrOr old).1 =
      if old.isBypassTunnel ∨ info.backup = .none then old.frrMode else info.backup := by
  unfold MessageInfo.frrOr MessageInfo.backup
  cases info.objs .fastReroute with
  | none => rw [if_pos (.inr rfl)]
  | some o =>
    dsimp only
    cases old.isBypassTunnel with
    | true => rw [if_pos rfl, if_pos (.inl rfl)]
    | false =>
      rw [if_neg Bool.false_ne_true]
      split
      · rfl
      · split
        · rfl
        · rw [if_pos (.inr rfl)]

/-- The name that a receiver reads is the stored one. -/
theorem sessAttrName_attrCall {psb : PsbState} (short : (psb.lspName.getD []).length ≤ 255) :
    sessAttrName (attrCall psb).data = psb.lspName.getD [] := by
  have whole : (psb.lspName.getD []).take 255 = psb.lspName.getD [] := List.take_of_length_le short
  have count : (UInt8.ofNat (psb.lspName.getD []).length).toNat = (psb.lspName.getD []).length := by
    rw [UInt8.toNat_ofNat']
    exact Nat.mod_eq_of_lt (Nat.lt_succ_of_le short)
  change ((psb.lspName.getD []).take 255).take
    (min (UInt8.ofNat ((psb.lspName.getD []).take 255).length).toNat 255) = _
  rw [whole, count]
  exact List.take_of_length_le (by omega)

/-- What a node stores of the attributes. -/
theorem pathUpdate_attributes {env : Env} {info : MessageInfo} (attr : info.objs .sessAttr ≠ none)
    (isName : IsLspName info.lspName) (old : PsbState) :
    (pathUpdate env info old).setupPrio = info.attributes.setupPrio ∧
      (pathUpdate env info old).holdingPrio = info.attributes.holdingPrio ∧
      (pathUpdate env info old).lspName = env.strdup info.lspName ∧
      (pathUpdate env info old).frrMode =
        if old.isBypassTunnel ∨ info.backup = .none then old.frrMode else info.backup := by
  obtain ⟨o, held⟩ := Option.ne_none_iff_exists'.mp attr
  rw [pathUpdate_eq, ← frrOr_eq, isName.cString_eq, if_neg isName.some]
  dsimp only [MessageInfo.attributes]
  rw [held]
  exact ⟨rfl, rfl, rfl, rfl⟩

theorem passedOn_attributes {env : Env} {info : MessageInfo} (attr : info.objs .sessAttr ≠ none)
    (isName : IsLspName info.lspName) (old : PsbState) (ifindex : UInt32) :
    (info.passedOn env old ifindex).setupPrio = info.attributes.setupPrio ∧
      (info.passedOn env old ifindex).holdingPrio = info.attributes.holdingPrio ∧
      (info.passedOn env old ifindex).lspName = env.strdup info.lspName ∧
      (info.passedOn env old ifindex).frrMode =
        (if old.isBypassTunnel ∨ info.backup = .none then old.frrMode else info.backup) ∧
      (info.passedOn env old ifindex).frrActive = old.frrActive ∧
      (info.passedOn env old ifindex).isBypassTunnel = old.isBypassTunnel := by
  obtain ⟨setup, holding, name, mode⟩ := @pathUpdate_attributes env info attr isName old
  refine ⟨setup, holding, name, mode, ?_⟩
  rw [MessageInfo.passedOn, pathUpdate_eq]
  exact ⟨rfl, rfl⟩

/-- A FAST_REROUTE object always asks for facility backup. -/
theorem Decodes.backup_eq {info : MessageInfo} {ttl : UInt8} {key : PathKey} {psb : PsbState}
    {localAddr : InAddr} {ifindex : UInt32}
    (decodes : Decodes info msgPath ttl (pathCalls key psb localAddr ifindex)) :
    info.backup = (if psb.frrMode ≠ .none ∧ psb.isBypassTunnel = false then .facility else .none) ∧
      (info.objs .fastReroute = none ↔ info.backup = .none) := by
  have first := firstCall_pathCalls_frr key psb localAddr ifindex
  unfold frrCalls at first
  by_cases asks : psb.frrMode ≠ .none ∧ psb.isBypassTunnel = false
  · rw [if_pos asks] at first
    obtain ⟨o, held, data⟩ := decodes.data_eq first
    have flags : (FastReroute.ofBytes o.data).flags = frrFlagFacility := by
      rw [data]
      rfl
    have facility : info.backup = .facility := by
      rw [MessageInfo.backup, held]
      dsimp only
      rw [flags, if_pos (by decide)]
    rw [if_pos asks, held, facility]
    exact ⟨rfl, iff_of_false (Option.some_ne_none o) FrrMode.noConfusion⟩
  · rw [if_neg asks] at first
    have absent := decodes.objs .fastReroute
    rw [first] at absent
    have none : info.objs .fastReroute = none := Option.map_eq_none_iff.mp absent
    have silent : info.backup = .none := by
      rw [MessageInfo.backup, none]
    rw [if_neg asks, none, silent]
    exact ⟨rfl, iff_of_true rfl rfl⟩

theorem sent_backup_eq (isBypass : Bool) (asked stored : FrrMode) :
    (if (if isBypass = true ∨ asked = .none then stored else asked) ≠ .none ∧ isBypass = false then
      FrrMode.facility else .none) =
      if isBypass = true ∨ asked = .none ∧ stored = .none then .none else .facility := by
  cases isBypass <;> cases asked <;> cases stored <;> rfl

/-- A node in transit sends on the attributes it stored. -/
theorem PathRelay.attributes_eq {env : Env} {s : Node} {info info' : MessageInfo}
    (relay : PathRelay env s info info') (attr : info.objs .sessAttr ≠ none)
    (isName : IsLspName info.lspName) (inactive : (s.pathStart info.key).frrActive = false) :
    info'.attributes = relayAttributes env (s.pathStart info.key) info.attributes ∧
      info'.objs .sessAttr ≠ none ∧ (info'.objs .fastReroute = none ↔ info'.backup = .none) := by
  obtain ⟨-, ifindex, ttl, decodes⟩ := relay.decodes
  obtain ⟨setup, holding, name, mode, active, bypass⟩ :=
    @passedOn_attributes env info attr isName (s.pathStart info.key) ifindex
  generalize info.passedOn env (s.pathStart info.key) ifindex = psb at *
  have first := firstCall_pathCalls_attr info.key psb (ownAddr env.toHal info.key ifindex) ifindex
  obtain ⟨o, held, data⟩ := decodes.data_eq first
  obtain ⟨backup, absent⟩ := decodes.backup_eq
  have short : (psb.lspName.getD []).length ≤ 255 := by
    rw [name, isName.strdup_eq]
    split
    · exact isName.short
    · exact Nat.zero_le _
  have read : info'.lspName = (env.strdup info.lspName).getD [] := by
    rw [decodes.lspName, first, ← name]
    exact sessAttrName_attrCall short
  have flags : sessAttrFlags psb = sessattrLocalProtDesired ||| sessattrSeStyle := by
    rw [sessAttrFlags, active, inactive]
    rfl
  have kind : info'.backup = (relayAttributes env (s.pathStart info.key) info.attributes).backup := by
    rw [backup, mode, bypass]
    exact sent_backup_eq _ info.backup _
  refine ⟨?_, by rw [held]; exact Option.some_ne_none o, absent⟩
  unfold MessageInfo.attributes at setup holding ⊢
  unfold relayAttributes at kind ⊢
  rw [held, read, kind]
  dsimp only [Option.elim_some] at setup holding ⊢
  rw [data, ← setup, ← holding, ← flags]
  rfl

/-! ## Chains -/

/-- A PATH `first` on its way through `n` nodes in transit that have the memory for its name; `armed`
says that one of them had stored a protection mode for the LSP before. -/
inductive AttributeChain (first : MessageInfo) : Nat → Bool → MessageInfo → Prop
  | ingress : AttributeChain first 0 false first
  | hop {n : Nat} {armed : Bool} {env : Env} {s : Node} {info info' : MessageInfo} :
    AttributeChain first n armed info → PathRelay env s info info' → env.strdupOk = true →
    (s.pathStart info.key).frrActive = false → (s.pathStart info.key).isBypassTunnel = false →
    AttributeChain first (n + 1) (armed || decide ((s.pathStart info.key).frrMode ≠ .none)) info'

/-- The attributes behind the first of the nodes. -/
def chainAttributes (a : LspAttributes) (armed : Bool) : LspAttributes :=
  { a with
    flags := sessattrLocalProtDesired ||| sessattrSeStyle
    backup := if a.backup = .none ∧ armed = false then .none else .facility }

/-- One node more changes nothing but whether a node was armed. -/
theorem relayAttributes_chain {env : Env} {old : PsbState} (memory : env.strdupOk = true)
    (own : old.isBypassTunnel = false) {a b : LspAttributes} {armed : Bool}
    (isName : IsLspName a.lspName) (here : b = a ∧ armed = false ∨ b = chainAttributes a armed) :
    relayAttributes env old b = chainAttributes a (armed || decide (old.frrMode ≠ .none)) := by
  have name : (env.strdup a.lspName).getD [] = a.lspName := by
    rw [isName.strdup_eq, if_pos memory]
    rfl
  rcases here with ⟨rfl, rfl⟩ | rfl
  · unfold relayAttributes chainAttributes
    rw [name, own]
    cases b.backup <;> cases old.frrMode <;> rfl
  · unfold relayAttributes chainAttributes
    dsimp only
    rw [name, own]
    cases a.backup <;> cases armed <;> cases old.frrMode <;> rfl

theorem AttributeChain.attributes_eq {first info : MessageInfo} {n : Nat} {armed : Bool}
    (attr : first.objs .sessAttr ≠ none) (isName : IsLspName first.lspName)
    (chain : AttributeChain first n armed info) :
    info.objs .sessAttr ≠ none ∧
      (n = 0 ∧ info.attributes = first.attributes ∧ armed = false ∨
        0 < n ∧ info.attributes = chainAttributes first.attributes armed) := by
  induction chain with
  | ingress => exact ⟨attr, .inl ⟨rfl, rfl, rfl⟩⟩
  | @hop n armed env s info info' _ relay memory inactive own ih =>
    obtain ⟨attr', here⟩ := ih
    have same : info.lspName = first.lspName := by
      rcases here with ⟨-, same, -⟩ | ⟨-, same⟩
      · exact congrArg LspAttributes.lspName same
      · exact congrArg LspAttributes.lspName same
    obtain ⟨next, kept, -⟩ := relay.attributes_eq attr' (same ▸ isName) inactive
    refine ⟨kept, .inr ⟨Nat.succ_pos n, ?_⟩⟩
    rw [next]
    exact relayAttributes_chain memory own isName (here.imp And.right And.right)

/-- A node in transit sends on the priorities and the name of a PATH, with its own flags and with
facility backup for every protected LSP.  So all nodes of a chain store the priorities and the name
of the first PATH. -/
theorem attributes_relayed {first : MessageInfo} (attr : first.objs .sessAttr ≠ none)
    (isName : IsLspName first.lspName) :
    (∀ env s, env.isLocalAddr first.key.session.destAddr = false →
      env.isLocalAddr first.key.sender.sourceAddr = false → PathForwarded env s first →
      (s.pathStart first.key).frrActive = false →
      (∃ info', PathRelay env s first info') ∧ ∀ info', PathRelay env s first info' →
        info'.attributes = relayAttributes env (s.pathStart first.key) first.attributes ∧
        (info'.objs .fastReroute = none ↔ info'.backup = .none)) ∧
    ∀ n armed info, AttributeChain first n armed info →
      (0 < n → info.attributes = chainAttributes first.attributes armed) ∧
      ∀ env old, (pathUpdate env info old).setupPrio = first.attributes.setupPrio ∧
        (pathUpdate env info old).holdingPrio = first.attributes.holdingPrio ∧
        (pathUpdate env info old).lspName = env.strdup first.lspName := by
  constructor
  · intro env s transit foreign forwarded inactive
    refine ⟨exists_pathRelay transit foreign forwarded, fun info' relay => ?_⟩
    obtain ⟨eq, -, absent⟩ := relay.attributes_eq attr isName inactive
    exact ⟨eq, absent⟩
  · intro n armed info chain
    obtain ⟨attr', here⟩ := chain.attributes_eq attr isName
    have same : info.attributes.setupPrio = first.attributes.setupPrio ∧
        info.attributes.holdingPrio = first.attributes.holdingPrio ∧
        info.lspName = first.lspName := by
      rcases here with ⟨-, same, -⟩ | ⟨-, same⟩
      · rw [same]
        exact ⟨rfl, rfl, congrArg LspAttributes.lspName same⟩
      · rw [same]
        exact ⟨rfl, rfl, congrArg LspAttributes.lspName same⟩
    refine ⟨fun pos => ?_, fun env old => ?_⟩
    · rcases here with ⟨zero, -⟩ | ⟨-, eq⟩
      · exact absurd zero (Nat.pos_iff_ne_zero.mp pos)
      · exact eq
    · obtain ⟨setup, holding, name, -⟩ :=
        @pathUpdate_attributes env info attr' (same.2.2 ▸ isName) old
      exact ⟨setup.trans same.1, holding.trans same.2.1, same.2.2 ▸ name⟩

/-! ## A PATH that asks for one-to-one backup -/

/-- No flags in the SESSION_ATTRIBUTE of "lsp1", and a FAST_REROUTE for one-to-one backup. -/
def oneToOnePath : Bytes :=
  rsvpPacket 0x0900000A 0x0200000A
    (built 1500 msgPath 64
      [sessionCall (sampleKey 0x0200000A 1), hopCall 0x0900000A 5, labelReqCall,
        ⟨classSessionAttrib, 7, [4, 3, 0, 4, 108, 115, 112, 49]⟩,
        ⟨classFastReroute, 1, FastReroute.bytes ⟨4, 3, 32, frrFlagOneToOne, 0, 0, 0, 0⟩⟩,
        senderCall classSenderTemplate (sampleKey 0x0200000A 1)]) true

def oneToOneAttributes : LspAttributes := ⟨4, 3, 0, [108, 115, 112, 49], .oneToOne⟩

theorem oneToOnePath_forwarded : ∃ info, rsvpParsePacket oneToOnePath = .ok info ∧
    info.attributes = oneToOneAttributes ∧ info.objs .sessAttr ≠ none ∧
    IsLspName info.lspName ∧
    PathForwarded (sampleEnv (fun _ => false) 100) (.init (labelMgrInit 16 31 true)) info := by
  have up : (rsvpParsePacket oneToOnePath).toOption.any (fun info =>
      info.attributes = oneToOneAttributes ∧ (info.objs .sessAttr).isSome = true ∧
      (rsvpValidatePathMessage info none).isNone = true) = true := by
    decide +kernel
  obtain ⟨info, parsed, holds⟩ := ParseResult.exists_ok_of_any up
  obtain ⟨same, attr, valid⟩ := of_decide_eq_true holds
  have name : info.lspName = [108, 115, 112, 49] := congrArg LspAttributes.lspName same
  refine ⟨info, parsed, same, Option.isSome_iff_ne_none.mp attr, ?_,
    pathForwarded_sample (Option.isNone_iff_eq_none.mp valid)⟩
  rw [name]
  exact ⟨by decide, by decide, by decide⟩

/-- What a node in transit without any LSP makes of it. -/
def oneToOneRelayed : LspAttributes := ⟨4, 3, 5, [108, 115, 112, 49], .facility⟩

theorem attributes_relayed_oneToOne : ∃ first info, rsvpParsePacket oneToOnePath = .ok first ∧
    PathRelay (sampleEnv (fun _ => false) 100) (.init (labelMgrInit 16 31 true)) first info ∧
    info.attributes = oneToOneRelayed := by
  obtain ⟨first, parsed, same, attr, isName, forwarded⟩ := oneToOnePath_forwarded
  obtain ⟨⟨info, relay⟩, relayed⟩ := (attributes_relayed attr isName).1 _ _ rfl rfl forwarded rfl
  refine ⟨first, info, parsed, relay, ?_⟩
  rw [(relayed info relay).1, same]
  rfl

/-- The flags and the kind of backup are not those of the PATH that was received. -/
theorem exists_attributes_changed : ∃ env s first info, rsvpParsePacket oneToOnePath = .ok first ∧
    PathRelay env s first info ∧ (s.pathStart first.key).frrActive = false ∧
    first.attributes.flags = 0 ∧ info.attributes.flags = 5 ∧
    first.backup = .oneToOne ∧ info.backup = .facility := by
  obtain ⟨first, parsed, same, attr, isName, forwarded⟩ := oneToOnePath_forwarded
  obtain ⟨info, relay⟩ := exists_pathRelay rfl rfl forwarded
  have relayed := (relay.attributes_eq attr isName rfl).1
  rw [same] at relayed
  exact ⟨_, _, first, info, parsed, relay, rfl, congrArg LspAttributes.flags same,
    congrArg LspAttributes.flags relayed, congrArg LspAttributes.backup same,
    congrArg LspAttributes.backup relayed⟩

/-- The PATH refreshes that one without a FAST_REROUTE. -/
def silentPath : Bytes :=
  rsvpPacket 0x0900000A 0x0200000A
    (built 1500 msgPath 64
      [sessionCall (sampleKey 0x0200000A 1), hopCall 0x0900000A 5, labelReqCall,
        ⟨classSessionAttrib, 7, [4, 3, 0, 4, 108, 115, 112, 49]⟩,
        senderCall classSenderTemplate (sampleKey 0x0200000A 1)]) true

/-- The node has stored that one-to-one backup was asked for. -/
def sampleAsked : Node :=
  (Node.init (labelMgrInit 16 31 true)).step (sampleEnv (fun _ => false) 100) (.recv oneToOnePath)

/-- A PATH without a FAST_REROUTE is sent on with one. -/
theorem exists_backup_added : ∃ env first info, rsvpParsePacket silentPath = .ok first ∧
    PathRelay env sampleAsked first info ∧ (sampleAsked.pathStart first.key).frrActive = false ∧
    first.objs .fastReroute = none ∧ info.objs .fastReroute ≠ none := by
  have up : (rsvpParsePacket silentPath).toOption.any (fun first =>
      (first.objs .sessAttr).isSome = true ∧ first.lspName = [108, 115, 112, 49] ∧
      (first.objs .fastReroute).isNone = true ∧
      (sampleAsked.rsvpPsbFind first.key).isSome = true ∧
      (rsvpValidatePathMessage first (sampleAsked.rsvpPsbFind first.key)).isNone = true ∧
      (sampleAsked.pathStart first.key).frrActive = false ∧
      (sampleAsked.pathStart first.key).frrMode = .oneToOne ∧
      (sampleAsked.pathStart first.key).isBypassTunnel = false) = true := by
    decide +kernel
  obtain ⟨first, parsed, holds⟩ := ParseResult.exists_ok_of_any up
  obtain ⟨attr, name, silent, found, valid, inactive, mode, primary⟩ := of_decide_eq_true holds
  have attr := Option.isSome_iff_ne_none.mp attr
  have silent := Option.isNone_iff_eq_none.mp silent
  have isName : IsLspName first.lspName := by
    rw [name]
    exact ⟨by decide, by decide, by decide⟩
  have forwarded : PathForwarded (sampleEnv (fun _ => false) 100) sampleAsked first :=
    ⟨⟨Option.isNone_iff_eq_none.mp valid,
        fun none => absurd none (Option.isSome_iff_ne_none.mp found)⟩,
      Option.some_ne_none _, Option.some_ne_none _⟩
  obtain ⟨info, relay⟩ := exists_pathRelay rfl rfl forwarded
  obtain ⟨relayed, -, absent⟩ := relay.attributes_eq attr isName inactive
  have kind : info.backup = .facility := by
    have stored : (relayAttributes (sampleEnv (fun _ => false) 100) (sampleAsked.pathStart first.key)
        first.attributes).backup = .facility := by
      rw [relayAttributes, mode, primary]
      refine if_neg ?_
      rintro (own | ⟨-, none⟩)
      · cases own
      · cases none
    exact (congrArg LspAttributes.backup relayed).trans stored
  refine ⟨_, first, info, parsed, relay, inactive, silent, fun none => ?_⟩
  rw [absent.mp none] at kind
  cases kind

end Rsvp

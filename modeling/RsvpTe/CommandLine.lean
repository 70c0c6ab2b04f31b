import Mathlib.Data.List.DropRight
import RsvpTe.Daemon
import RsvpTe.Messages
import RsvpTe.Lib.Scanf

/-!
# The command line (`rsvp_cli_handle_input`)

A line is cut at its end, compared with the commands in turn and read with `sscanf`; what it makes
the daemon do is a `DaemonEvent`.  The table of interfaces that `rsvp_if_get_by_name` asks is the
argument `ifindexOf`; commands that only print, or only write that table, do nothing here.

What an operator types is read as it is meant.  One buffer is too small: the address of a neighbour
is read with `"%45s"` into `INET_ADDRSTRLEN` bytes, and overruns them from 16 bytes on
(`cli_reads`).
-/

namespace Rsvp

open Words Scanf

/-- The bytes of a text. -/
def ascii (s : String) : Bytes := s.toList.map fun c => UInt8.ofNat c.toNat

/-! ## Addresses -/

/-- A part of a dotted address: digits without a leading zero, up to 255. -/
def octet (s : Bytes) : Option UInt8 :=
  if s ≠ [] ∧ s.all isDigit ∧ (s.head? = some 48 → s.length = 1) ∧ number s ≤ 255 then
    some (UInt8.ofNat (number s))
  else none

/-- `inet_pton(AF_INET, ..)`. -/
def inetPton (s : Bytes) : Option InAddr :=
  match (s.splitOn 46).mapM octet with
  | some [a, b, c, d] => some (le32 a b c d)
  | _ => none

/-! ## The handler -/

/-- The text of a line: white space at the end of what was read is cut off, and a NUL ends it. -/
def lineText (buf : Bytes) : Bytes :=
  cString (buf.rdropWhile fun c => c = 10 ∨ c = 13 ∨ c = 32 ∨ c = 9)

def ifNamesize : Nat := 16
def inetAddrstrlen : Nat := 16

/-- `"%15s %63s"`. -/
def interfaceFormat : List Directive := [.word 15 ifNamesize, .space, .word 63 64]

/-- `"%15s rsvp %15s"`. -/
def rsvpFormat : List Directive :=
  .word 15 ifNamesize :: .space :: (text (ascii "rsvp") ++ [.space, .word 15 16])

/-- `"%15s rsvp neighbor %45s"`, where the address is stored in `INET_ADDRSTRLEN` bytes. -/
def neighborFormat : List Directive :=
  .word 15 ifNamesize :: .space :: (text (ascii "rsvp") ++ .space ::
    (text (ascii "neighbor") ++ [.space, .word 45 inetAddrstrlen]))

/-- `"%31s %31s %u %31s"`. -/
def setupFormat : List Directive :=
  [.word 31 32, .space, .word 31 32, .space, .unsigned, .space, .word 31 32]

section Handler

variable (env : Env) (ifindexOf : Bytes → UInt32) (rand : Rand)

/-- `interface <name> rsvp neighbor <ip>`. -/
def handleNeighbor (args : Bytes) : Option (Option DaemonEvent) :=
  (sscanf neighborFormat args).map fun
    | [.word ifName, .word nborStr] => (inetPton nborStr).map fun nborAddr =>
      let idx := ifindexOf ifName
      .addNeighbor nborAddr (env.localAddrOrZero idx) idx rand
    | _ => none

/-- `interface <name> ..`: but for a neighbour, only the table of interfaces changes. -/
def handleInterface (args : Bytes) : Option (Option DaemonEvent) :=
  (sscanf interfaceFormat args).bind fun
    | [_, .word subcmd] =>
      if subcmd == ascii "rsvp" then
        (sscanf rsvpFormat args).bind fun
          | [_, .word action] =>
            if action == ascii "neighbor" then handleNeighbor env ifindexOf rand args else some none
          | _ => some none
      else some none
    | _ => some none

/-- `rsvp frr revert <ifindex>`. -/
def handleRevert (args : Bytes) : Option (Option DaemonEvent) :=
  (sscanf [.unsigned] args).map fun
    | [.unsigned ifidx] => some (.lsp (.frrRevert ifidx))
    | _ => none

/-- `rsvp mbb <tunnel_id> <old_lsp_id> <new_lsp_id>`. -/
def handleMbb (args : Bytes) : Option (Option DaemonEvent) :=
  (sscanf [.unsigned, .space, .unsigned, .space, .unsigned] args).map fun
    | [.unsigned tunnelId, .unsigned oldId, .unsigned newId] =>
      some (.lsp (.mbbStart tunnelId.toUInt16 oldId.toUInt16 newId.toUInt16 []))
    | _ => none

/-- `delete tunnel <tunnel_id> <lsp_id>`. -/
def handleDelete (args : Bytes) : Option (Option DaemonEvent) :=
  (sscanf [.unsigned, .space, .unsigned] args).map fun
    | [.unsigned tunnelId, .unsigned lspId] =>
      some (.lsp (.teardown tunnelId.toUInt16 lspId.toUInt16))
    | _ => none

/-- `setup tunnel <src_ip> <dest_ip> <tunnel_id> <name>`. -/
def handleSetup (args : Bytes) : Option (Option DaemonEvent) :=
  (sscanf setupFormat args).map fun
    | [.word srcStr, .word destStr, .unsigned tunnelId, .word name] =>
      (inetPton srcStr).bind fun src => (inetPton destStr).map fun dest =>
        .lsp (.initiatePath src dest tunnelId.toUInt16 (some name) [] false)
    | _ => none

/-- `rsvp_cli_handle_input` with what one `read` answers: the event of the daemon, if there is one.
Where `sscanf` overruns a buffer there is no result. -/
def rsvpCliHandleInput (input : Bytes) : Option (Option DaemonEvent) :=
  let buf := lineText input
  if buf == ascii "show psb" then some none
  else if buf == ascii "show rsb" then some none
  else if buf == ascii "show mpls routes" then some none
  else if buf == ascii "show rsvp neighbors" then some none
  else if buf == ascii "show rsvp interfaces" then some none
  else if (ascii "show rsvp interface ").isPrefixOf buf then some none
  else if (ascii "interface ").isPrefixOf buf then handleInterface env ifindexOf rand (buf.drop 10)
  else if buf == ascii "show rsvp frr" then some none
  else if (ascii "rsvp frr revert ").isPrefixOf buf then handleRevert (buf.drop 16)
  else if (ascii "rsvp mbb ").isPrefixOf buf then handleMbb (buf.drop 9)
  else if (ascii "delete tunnel ").isPrefixOf buf then handleDelete (buf.drop 14)
  else if (ascii "setup tunnel ").isPrefixOf buf then handleSetup (buf.drop 13)
  else some none

end Handler

/-! ## What an operator writes -/

/-- A word of at most `max` bytes. -/
structure CliWord (max : Nat) : Type where
  bytes : Bytes
  some_ : bytes ≠ []
  graphic : ∀ c ∈ bytes, isSpace c = false ∧ c ≠ 0
  short : bytes.length ≤ max

/-- An address with its dots. -/
def dotted (addr : InAddr) : Bytes :=
  [46].intercalate ((bytes32 addr).map fun c => decimal c.toNat)

inductive CliCommand : Type
  | neighbor (ifName : CliWord 15) (nbor : CliWord 45)
  | revert (ifidx : UInt32)
  | mbb (tunnelId oldId newId : UInt32)
  | delete (tunnelId lspId : UInt32)
  | setup (src dest : InAddr) (tunnelId : UInt32) (name : CliWord 31)

/-- The text of a command. -/
def CliCommand.line : CliCommand → Bytes
  | .neighbor ifName nbor =>
    ascii "interface " ++ (ifName.bytes ++ (ascii " rsvp neighbor " ++ nbor.bytes))
  | .revert ifidx => ascii "rsvp frr revert " ++ decimal ifidx.toNat
  | .mbb tunnelId oldId newId => ascii "rsvp mbb " ++ (decimal tunnelId.toNat ++
      32 :: (decimal oldId.toNat ++ 32 :: decimal newId.toNat))
  | .delete tunnelId lspId =>
    ascii "delete tunnel " ++ (decimal tunnelId.toNat ++ 32 :: decimal lspId.toNat)
  | .setup src dest tunnelId name => ascii "setup tunnel " ++ (dotted src ++ 32 :: (dotted dest ++
      32 :: (decimal tunnelId.toNat ++ 32 :: name.bytes)))

/-- What a command asks the daemon for.  Ids have 16 bits there. -/
def CliCommand.meaning (env : Env) (ifindexOf : Bytes → UInt32) (rand : Rand) :
    CliCommand → Option (Option DaemonEvent)
  | .neighbor ifName nbor =>
    if nbor.bytes.length < inetAddrstrlen then
      some ((inetPton nbor.bytes).map fun addr => .addNeighbor addr
        (env.localAddrOrZero (ifindexOf ifName.bytes)) (ifindexOf ifName.bytes) rand)
    else none
  | .revert ifidx => some (some (.lsp (.frrRevert ifidx)))
  | .mbb tunnelId oldId newId =>
    some (some (.lsp (.mbbStart tunnelId.toUInt16 oldId.toUInt16 newId.toUInt16 [])))
  | .delete tunnelId lspId => some (some (.lsp (.teardown tunnelId.toUInt16 lspId.toUInt16)))
  | .setup src dest tunnelId name =>
    some (some (.lsp (.initiatePath src dest tunnelId.toUInt16 (some name.bytes) [] false)))

/-! ## Addresses are read as they are printed -/

theorem octet_decimal (c : UInt8) : octet (decimal c.toNat) = some c := by
  have small : c.toNat ≤ 255 := Nat.le_of_lt_succ c.toNat_lt
  have zero : (decimal c.toNat).head? = some 48 → (decimal c.toNat).length = 1 := by
    intro first
    have none : c.toNat = 0 := by
      by_contra pos
      exact head_decimal (Nat.pos_of_ne_zero pos) first
    rw [none, decimal, if_pos (by decide)]
    rfl
  have digits := List.all_eq_true.mpr (isDigit_decimal c.toNat)
  rw [octet, number_decimal, if_pos ⟨decimal_ne_nil _, digits, zero, small⟩, UInt8.ofNat_toNat]

theorem inetPton_dotted (addr : InAddr) : inetPton (dotted addr) = some addr := by
  have parts : ((bytes32 addr).map fun c => decimal c.toNat).mapM octet = some (bytes32 addr) := by
    simp only [bytes32, List.map_cons, List.map_nil, List.mapM_cons, List.mapM_nil, octet_decimal]
    rfl
  have split : (dotted addr).splitOn 46 = (bytes32 addr).map fun c => decimal c.toNat := by
    apply List.splitOn_intercalate
    · intro part mem dot
      obtain ⟨c, -, rfl⟩ := List.mem_map.mp mem
      cases isDigit_decimal _ _ dot
    · exact List.cons_ne_nil _ _
  rw [inetPton, split, parts]
  exact congrArg some (le32_bytes addr)

theorem decimal_ne_zero (n : Nat) : ∀ c ∈ decimal n, c ≠ 0 := by
  intro c mem zero
  cases zero ▸ isDigit_decimal n c mem

/-- The dots and numbers of an address. -/
theorem dotted_eq (addr : InAddr) : ∃ a b c d : UInt8, dotted addr = decimal a.toNat ++
    46 :: (decimal b.toNat ++ 46 :: (decimal c.toNat ++ 46 :: decimal d.toNat)) :=
  ⟨addr.toUInt8, .ofNat (addr.toNat / 256), .ofNat (addr.toNat / 65536),
    .ofNat (addr.toNat / 16777216), by simp [dotted, bytes32, List.intercalate]⟩

def dottedWord (addr : InAddr) : CliWord 15 where
  bytes := dotted addr
  some_ := by
    obtain ⟨a, b, c, d, same⟩ := dotted_eq addr
    rw [same]
    exact List.append_ne_nil_of_left_ne_nil (decimal_ne_nil _) _
  graphic := by
    obtain ⟨a, b, c, d, same⟩ := dotted_eq addr
    have digits : ∀ n : UInt8, ∀ x ∈ decimal n.toNat, isSpace x = false ∧ x ≠ 0 := fun n x mem =>
      ⟨graphic_decimal _ x mem, decimal_ne_zero _ x mem⟩
    have dot : isSpace 46 = false ∧ (46 : UInt8) ≠ 0 := by decide
    rw [same]
    simp only [List.forall_mem_append, List.forall_mem_cons]
    exact ⟨digits a, dot, digits b, dot, digits c, dot, digits d⟩
  short := by
    obtain ⟨a, b, c, d, same⟩ := dotted_eq addr
    have short : ∀ n : UInt8, (decimal n.toNat).length ≤ 3 := fun n =>
      length_decimal_le (by decide) (Nat.lt_trans n.toNat_lt (by decide))
    have lengths := And.intro (short a) (And.intro (short b) (And.intro (short c) (short d)))
    rw [same]
    simp only [List.length_append, List.length_cons]
    omega

/-! ## Commands are read as they are written -/

theorem CliWord.isGraphic {max : Nat} (w : CliWord max) : Graphic w.bytes := fun c mem =>
  (w.graphic c mem).1

/-- A line that ends in a word and has no NUL is its text. -/
theorem lineText_line {front w : Bytes} (some_ : w ≠ []) (graphic : Graphic w)
    (noNul : ∀ c ∈ front ++ w, c ≠ 0) : lineText (front ++ w ++ [10]) = front ++ w := by
  have cut : (front ++ w ++ [10]).rdropWhile (fun c => c = 10 ∨ c = 13 ∨ c = 32 ∨ c = 9) =
      front ++ w := by
    rw [List.rdropWhile_concat_pos _ _ _ (by decide), List.rdropWhile_eq_self_iff]
    intro whole
    rw [List.getLast_append_of_ne_nil whole some_]
    have inside := graphic _ (List.getLast_mem some_)
    generalize w.getLast some_ = c at inside
    intro blank
    rcases of_decide_eq_true blank with rfl | rfl | rfl | rfl <;> cases inside
  rw [lineText, cut, cString, List.takeWhile_eq_self_iff]
  exact fun c mem => decide_eq_true (noNul c mem)

/-- A command is its text. -/
theorem CliCommand.lineText_line (c : CliCommand) : lineText (c.line ++ [10]) = c.line := by
  have ends : ∃ front w, c.line = front ++ w ∧ w ≠ [] ∧ Graphic w ∧ ∀ x ∈ front ++ w, x ≠ 0 := by
    cases c with
    | neighbor ifName nbor =>
      refine ⟨ascii "interface " ++ (ifName.bytes ++ ascii " rsvp neighbor "), nbor.bytes, ?_,
        nbor.some_, nbor.isGraphic, ?_⟩
      · rw [line, List.append_assoc, List.append_assoc]
      · simp only [List.forall_mem_append]
        exact ⟨⟨by decide +kernel, fun x mem => (ifName.graphic x mem).2, by decide +kernel⟩,
          fun x mem => (nbor.graphic x mem).2⟩
    | revert n =>
      refine ⟨ascii "rsvp frr revert ", decimal n.toNat, rfl, decimal_ne_nil _,
        graphic_decimal _, ?_⟩
      rw [List.forall_mem_append]
      exact ⟨by decide +kernel, decimal_ne_zero _⟩
    | mbb t o n =>
      refine ⟨ascii "rsvp mbb " ++ (decimal t.toNat ++ 32 :: (decimal o.toNat ++ [32])),
        decimal n.toNat, ?_, decimal_ne_nil _, graphic_decimal _, ?_⟩
      · simp only [line, List.append_assoc, List.cons_append, List.nil_append]
      · simp only [List.forall_mem_append, List.forall_mem_cons]
        exact ⟨⟨by decide +kernel, decimal_ne_zero _, by decide +kernel, decimal_ne_zero _, by decide +kernel,
          List.forall_mem_nil _⟩, decimal_ne_zero _⟩
    | delete t l =>
      refine ⟨ascii "delete tunnel " ++ (decimal t.toNat ++ [32]), decimal l.toNat, ?_,
        decimal_ne_nil _, graphic_decimal _, ?_⟩
      · simp only [line, List.append_assoc, List.cons_append, List.nil_append]
      · simp only [List.forall_mem_append, List.forall_mem_cons]
        exact ⟨⟨by decide +kernel, decimal_ne_zero _, by decide +kernel, List.forall_mem_nil _⟩, decimal_ne_zero _⟩
    | setup src dest t name =>
      have address := fun addr x mem => ((dottedWord addr).graphic x mem).2
      refine ⟨ascii "setup tunnel " ++ (dotted src ++ 32 :: (dotted dest ++
        32 :: (decimal t.toNat ++ [32]))), name.bytes, ?_, name.some_, name.isGraphic, ?_⟩
      · simp only [line, List.append_assoc, List.cons_append, List.nil_append]
      · simp only [List.forall_mem_append, List.forall_mem_cons]
        exact ⟨⟨by decide +kernel, address src, by decide +kernel, address dest, by decide +kernel, decimal_ne_zero _,
          by decide +kernel, List.forall_mem_nil _⟩, fun x mem => (name.graphic x mem).2⟩
  obtain ⟨front, w, same, some_, graphic, noNul⟩ := ends
  rw [same]
  exact Rsvp.lineText_line some_ graphic noNul

theorem handleRevert_line (n : UInt32) :
    handleRevert (decimal n.toNat) = some (some (.lsp (.frrRevert n))) := by
  rw [handleRevert, sscanf_unsigned_end]
  rfl

theorem handleMbb_line (t o n : UInt32) :
    handleMbb (decimal t.toNat ++ 32 :: (decimal o.toNat ++ 32 :: decimal n.toNat)) =
      some (some (.lsp (.mbbStart t.toUInt16 o.toUInt16 n.toUInt16 []))) := by
  have second := starts_append (decimal_ne_nil o.toNat) (graphic_decimal o.toNat)
  rw [handleMbb, sscanf_unsigned t (ends_cons _), sscanf_space (second _),
    sscanf_unsigned o (ends_cons _), sscanf_space (graphic_decimal n.toNat).starts,
    sscanf_unsigned_end]
  rfl

theorem handleDelete_line (t l : UInt32) :
    handleDelete (decimal t.toNat ++ 32 :: decimal l.toNat) =
      some (some (.lsp (.teardown t.toUInt16 l.toUInt16))) := by
  rw [handleDelete, sscanf_unsigned t (ends_cons _), sscanf_space (graphic_decimal l.toNat).starts,
    sscanf_unsigned_end]
  rfl

theorem handleSetup_line (src dest : InAddr) (t : UInt32) (name : CliWord 31) :
    handleSetup (dotted src ++ 32 :: (dotted dest ++ 32 :: (decimal t.toNat ++ 32 :: name.bytes))) =
      some (some (.lsp (.initiatePath src dest t.toUInt16 (some name.bytes) [] false))) := by
  have address : ∀ (addr : InAddr) (format : List Directive) (s : Bytes), Ends s →
      sscanf (.word 31 32 :: format) (dotted addr ++ s) =
        (sscanf format s).map (.word (dotted addr) :: ·) := by
    intro addr format s ends
    have some_ : dotted addr ≠ [] := (dottedWord addr).some_
    have graphic : Graphic (dotted addr) := (dottedWord addr).isGraphic
    have short : (dotted addr).length ≤ 15 := (dottedWord addr).short
    rw [sscanf_word some_ graphic (Nat.le_trans short (by decide : 15 ≤ 31)) ends]
    exact if_pos (Nat.lt_of_le_of_lt short (by decide))
  have second : ∀ s, Starts (dotted dest ++ s) :=
    starts_append (dottedWord dest).some_ (dottedWord dest).isGraphic
  have third := starts_append (decimal_ne_nil t.toNat) (graphic_decimal t.toNat)
  rw [handleSetup, setupFormat, address src _ _ (ends_cons _), sscanf_space (second _),
    address dest _ _ (ends_cons _), sscanf_space (third _), sscanf_unsigned t (ends_cons _),
    sscanf_space name.isGraphic.starts, sscanf_word_end name.some_ name.isGraphic name.short,
    if_pos (Nat.lt_succ_of_le name.short)]
  dsimp only [Option.map_some]
  rw [inetPton_dotted, inetPton_dotted]
  rfl

section Neighbor

variable (env : Env) (ifindexOf : Bytes → UInt32) (rand : Rand)

/-- The first word of the three formats of a neighbour. -/
theorem sscanf_ifName {format : List Directive} {s : Bytes} (ifName : CliWord 15) (ends : Ends s) :
    sscanf (.word 15 ifNamesize :: format) (ifName.bytes ++ s) =
      (sscanf format s).map (.word ifName.bytes :: ·) := by
  rw [sscanf_word ifName.some_ ifName.isGraphic ifName.short ends]
  exact if_pos (Nat.lt_succ_of_le ifName.short)

theorem graphic_keyword : Graphic (ascii "rsvp") ∧ Graphic (ascii "neighbor") := by
  unfold Graphic
  decide +kernel

theorem starts_keyword (s : Bytes) : Starts (ascii "rsvp" ++ s) ∧ Starts (ascii "neighbor" ++ s) :=
  ⟨starts_append (by decide) graphic_keyword.1 s, starts_append (by decide) graphic_keyword.2 s⟩

theorem keywords_split (w : Bytes) : ascii " rsvp neighbor " ++ w =
    32 :: (ascii "rsvp" ++ 32 :: (ascii "neighbor" ++ 32 :: w)) :=
  rfl

theorem handleNeighbor_line (ifName : CliWord 15) (nbor : CliWord 45) :
    handleNeighbor env ifindexOf rand (ifName.bytes ++ (ascii " rsvp neighbor " ++ nbor.bytes)) =
      (CliCommand.neighbor ifName nbor).meaning env ifindexOf rand := by
  rw [handleNeighbor, neighborFormat, keywords_split, sscanf_ifName ifName (ends_cons _),
    sscanf_space (starts_keyword _).1, sscanf_text, sscanf_space (starts_keyword _).2, sscanf_text,
    sscanf_space nbor.isGraphic.starts, sscanf_word_end nbor.some_ nbor.isGraphic nbor.short]
  unfold CliCommand.meaning
  dsimp only
  split
  · rfl
  · rfl

theorem handleInterface_line (ifName : CliWord 15) (nbor : CliWord 45) :
    handleInterface env ifindexOf rand (ifName.bytes ++ (ascii " rsvp neighbor " ++ nbor.bytes)) =
      handleNeighbor env ifindexOf rand
        (ifName.bytes ++ (ascii " rsvp neighbor " ++ nbor.bytes)) := by
  have subcmd : sscanf interfaceFormat (ifName.bytes ++ (ascii " rsvp neighbor " ++ nbor.bytes)) =
      some [.word ifName.bytes, .word (ascii "rsvp")] := by
    rw [interfaceFormat, keywords_split, sscanf_ifName ifName (ends_cons _),
      sscanf_space (starts_keyword _).1,
      sscanf_word (by decide) graphic_keyword.1 (by decide) (ends_cons _)]
    rfl
  have action : sscanf rsvpFormat (ifName.bytes ++ (ascii " rsvp neighbor " ++ nbor.bytes)) =
      some [.word ifName.bytes, .word (ascii "neighbor")] := by
    rw [rsvpFormat, keywords_split, sscanf_ifName ifName (ends_cons _),
      sscanf_space (starts_keyword _).1, sscanf_text, sscanf_space (starts_keyword _).2,
      sscanf_word (by decide) graphic_keyword.2 (by decide) (ends_cons _)]
    rfl
  rw [handleInterface, subcmd, Option.bind_some]
  dsimp only
  rw [if_pos (by decide), action]
  rfl

end Neighbor

/-- The other formats keep to their buffers. -/
theorem handle_ne_none (args : Bytes) : handleRevert args ≠ none ∧ handleMbb args ≠ none ∧
    handleDelete args ≠ none ∧ handleSetup args ≠ none := by
  have keeps : ∀ {format : List Directive} {f : List Field → Option DaemonEvent},
      (∀ d ∈ format, d.Fits) → (sscanf format args).map f ≠ none := fun fits none =>
    sscanf_ne_none fits args (Option.map_eq_none_iff.mp none)
  exact ⟨keeps (by decide), keeps (by decide), keeps (by decide), keeps (by decide)⟩

theorem handleInterface_overrun {env : Env} {ifindexOf : Bytes → UInt32} {rand : Rand}
    {args : Bytes} (overrun : handleInterface env ifindexOf rand args = none) :
    sscanf neighborFormat args = none := by
  have fits : ∀ format ∈ [interfaceFormat, rsvpFormat], ∀ d ∈ format, d.Fits := by decide
  obtain ⟨fields, words⟩ := Option.ne_none_iff_exists'.mp
    (sscanf_ne_none (fits interfaceFormat (by decide)) args)
  obtain ⟨more, actions⟩ := Option.ne_none_iff_exists'.mp
    (sscanf_ne_none (fits rsvpFormat (by decide)) args)
  rw [handleInterface, words, Option.bind_some] at overrun
  split at overrun
  · split at overrun
    · rw [actions, Option.bind_some] at overrun
      split at overrun
      · split at overrun
        · exact Option.map_eq_none_iff.mp overrun
        · cases overrun
      · cases overrun
    · cases overrun
  · cases overrun

/-- Only the address of a neighbour overruns its buffer. -/
theorem neighbor_of_overrun {env : Env} {ifindexOf : Bytes → UInt32} {rand : Rand} {input : Bytes}
    (overrun : rsvpCliHandleInput env ifindexOf rand input = none) :
    ∃ args, lineText input = ascii "interface " ++ args ∧ sscanf neighborFormat args = none := by
  unfold rsvpCliHandleInput at overrun
  dsimp only at overrun
  generalize lineText input = buf at overrun ⊢
  have passed : ∀ {c : Prop} [Decidable c] {x y : Option (Option DaemonEvent)}, x ≠ none →
      (if c then x else y) = none → y = none := by
    intro c _ x y kept none
    rcases ite_eq_iff.mp none with ⟨-, lost⟩ | ⟨-, later⟩
    · exact absurd lost kept
    · exact later
  have printed := @Option.some_ne_none (Option DaemonEvent) none
  have others := handle_ne_none
  iterate 6 replace overrun := passed printed overrun
  rcases ite_eq_iff.mp overrun with ⟨interface, overrun⟩ | ⟨-, overrun⟩
  · have split := List.prefix_iff_eq_append.mp (List.isPrefixOf_iff_prefix.mp interface)
    exact ⟨_, split.symm, handleInterface_overrun overrun⟩
  · replace overrun := passed (others _).1 (passed printed overrun)
    replace overrun := passed (others _).2.2.1 (passed (others _).2.1 overrun)
    exact absurd (passed (others _).2.2.2 overrun) printed

/-- What overruns it is a word of 16 bytes or more. -/
theorem neighborFormat_overrun {args : Bytes} (overrun : sscanf neighborFormat args = none) :
    ∃ front w rest, args = front ++ (w ++ rest) ∧ Graphic w ∧ inetAddrstrlen ≤ w.length ∧
      w.length ≤ 45 := by
  obtain ⟨width, size, front, w, rest, mem, split, long, narrow, graphic⟩ :=
    exists_of_sscanf_eq_none overrun
  have wide : ∀ d ∈ neighborFormat, d.Fits ∨ d = .word 45 inetAddrstrlen := by decide
  rcases wide _ mem with fits | same
  · have fit : width < size := fits
    omega
  · cases same
    exact ⟨front, w, rest, split, graphic, long, narrow⟩

/-- Every command fits one `read` of 255 bytes. -/
theorem CliCommand.length_line (c : CliCommand) : (c.line ++ [10]).length ≤ 255 := by
  have number : ∀ n : UInt32, (decimal n.toNat).length ≤ 10 := fun n =>
    length_decimal_le (by decide) (Nat.lt_trans n.toNat_lt (by decide))
  have address : ∀ addr, (dotted addr).length ≤ 15 := fun addr => (dottedWord addr).short
  have keyword : ∀ s ∈ ["interface ", " rsvp neighbor ", "rsvp frr revert ", "rsvp mbb ",
      "delete tunnel ", "setup tunnel "], (ascii s).length ≤ 16 := by decide +kernel
  cases c with
  | neighbor ifName nbor =>
    have first := keyword "interface " (by decide)
    have second := keyword " rsvp neighbor " (by decide)
    have words := And.intro ifName.short nbor.short
    simp only [line, List.length_append, List.length_cons, List.length_nil]
    omega
  | revert n =>
    have first := keyword "rsvp frr revert " (by decide)
    have last := number n
    simp only [line, List.length_append, List.length_cons, List.length_nil]
    omega
  | mbb t o n =>
    have first := keyword "rsvp mbb " (by decide)
    have numbers := And.intro (number t) (And.intro (number o) (number n))
    simp only [line, List.length_append, List.length_cons, List.length_nil]
    omega
  | delete t l =>
    have first := keyword "delete tunnel " (by decide)
    have numbers := And.intro (number t) (number l)
    simp only [line, List.length_append, List.length_cons, List.length_nil]
    omega
  | setup src dest t name =>
    have first := keyword "setup tunnel " (by decide)
    have addresses := And.intro (address src) (address dest)
    have others := And.intro (number t) name.short
    simp only [line, List.length_append, List.length_cons, List.length_nil]
    omega

/-- A command, typed as a line, makes the daemon do what it means; the address of a neighbour
overruns its buffer from 16 bytes on.  Whatever is typed, nothing else overruns a buffer. -/
theorem cli_reads (env : Env) (ifindexOf : Bytes → UInt32) (rand : Rand) :
    (∀ c : CliCommand, (c.line ++ [10]).length ≤ 255 ∧
      rsvpCliHandleInput env ifindexOf rand (c.line ++ [10]) = c.meaning env ifindexOf rand) ∧
    ∀ input, rsvpCliHandleInput env ifindexOf rand input = none → ∃ front w rest,
      lineText input = ascii "interface " ++ (front ++ (w ++ rest)) ∧ Graphic w ∧
        inetAddrstrlen ≤ w.length ∧ w.length ≤ 45 := by
  constructor
  · intro c
    refine ⟨c.length_line, ?_⟩
    unfold rsvpCliHandleInput
    rw [c.lineText_line]
    cases c with
    | neighbor ifName nbor =>
      have handled := handleInterface_line env ifindexOf rand ifName nbor
      exact handled.trans (handleNeighbor_line env ifindexOf rand ifName nbor)
    | revert n => exact handleRevert_line n
    | mbb t o n => exact handleMbb_line t o n
    | delete t l => exact handleDelete_line t l
    | setup src dest t name => exact handleSetup_line src dest t name
  · intro input overrun
    obtain ⟨args, line, stopped⟩ := neighbor_of_overrun overrun
    obtain ⟨front, w, rest, split, long⟩ := neighborFormat_overrun stopped
    exact ⟨front, w, rest, by rw [line, split], long⟩

/-- A neighbour with an address of 17 digits. -/
def longNeighbor : CliCommand :=
  .neighbor ⟨ascii "eth0", by decide, by decide +kernel, by decide⟩
    ⟨ascii "12345678901234567", by decide, by decide +kernel, by decide⟩

theorem cli_reads_overrun : ∃ front w rest, lineText (longNeighbor.line ++ [10]) =
    ascii "interface " ++ (front ++ (w ++ rest)) ∧ Graphic w ∧ inetAddrstrlen ≤ w.length ∧
      w.length ≤ 45 := by
  obtain ⟨reads, overruns⟩ :=
    cli_reads (sampleEnv (fun _ => false) 1) (fun _ => 2) ⟨fun _ => 1, 0, by decide⟩
  obtain ⟨-, read⟩ := reads longNeighbor
  apply overruns
  rw [read]
  rfl

end Rsvp

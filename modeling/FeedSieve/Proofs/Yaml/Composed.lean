/-
Putting tokens together.

Whatever tokens there are, they make up a node or none at all, or the
document is malformed (`onlyMalformed_ofTokens`). The readers of nodes call
each other with a lower limit, so what they fail of is settled for all of
them at once, by induction on it (`Composes`).
-/
import FeedSieve.Yaml.Node
import FeedSieve.Proofs.Yaml.Faults

namespace FeedSieve.Yaml

variable {α β : Type} {x : Except Fault α} {f : α → Except Fault β} {limit : Nat}

/-- What fails only because the document is malformed. -/
def OnlyMalformed (x : Except Fault α) : Prop := Gives (fun _ => True) (· = .malformed) x

theorem OnlyMalformed.bind (hx : OnlyMalformed x) (hf : ∀ a, OnlyMalformed (f a)) :
    OnlyMalformed (x >>= f) :=
  Gives.bind hx fun a _ => hf a

theorem onlyMalformed_ok (a : α) : OnlyMalformed (.ok a) := .ok trivial

theorem onlyMalformed_malformed : OnlyMalformed (.error .malformed : Except Fault α) := .error rfl

theorem OnlyMalformed.ite {c : Prop} [Decidable c] {y : Except Fault α} (hx : OnlyMalformed x)
    (hy : OnlyMalformed y) : OnlyMalformed (if c then x else y) :=
  Gives.ite hx hy

-- =============================================================== nodes

theorem onlyMalformed_tagName (names : Names) (handle : Option Text) (suffix : Text) :
    OnlyMalformed (names.tagName handle suffix) := by
  unfold Names.tagName
  repeat' split
  all_goals first
    | exact onlyMalformed_ok _
    | exact onlyMalformed_malformed

theorem onlyMalformed_properties (names : Names) (tokens : List Token) :
    OnlyMalformed (properties names tokens) := by
  have htag {handle : Option Text} {suffix : Text} {make : Text → Properties × List Token} :
      OnlyMalformed (do return make (← names.tagName handle suffix)) :=
    (onlyMalformed_tagName ..).bind fun _ => onlyMalformed_ok _
  unfold properties
  split
  · exact htag
  · exact htag
  · exact onlyMalformed_ok _
  · exact htag
  · exact onlyMalformed_ok _

theorem onlyMalformed_add (names : Names) (anchor : Option Text) (node : Node) :
    OnlyMalformed (names.add anchor node) := by
  unfold Names.add
  repeat' split
  all_goals first
    | exact onlyMalformed_ok _
    | exact onlyMalformed_malformed

theorem onlyMalformed_emptyNode (names : Names) (p : Properties) (rest : List Token) :
    OnlyMalformed (emptyNode names p rest) :=
  (onlyMalformed_add ..).bind fun _ => onlyMalformed_ok _

/-- Reading nodes within a limit fails only because the document is malformed. -/
structure Composes (limit : Nat) : Prop where
  node : ∀ blocks dashes names tokens, OnlyMalformed (readNode limit blocks dashes names tokens)
  entries : ∀ names tokens, OnlyMalformed (readEntries limit names tokens)
  dashes : ∀ names tokens, OnlyMalformed (readDashes limit names tokens)
  blockPairs : ∀ names tokens, OnlyMalformed (readBlockPairs limit names tokens)
  flow : ∀ opening names tokens, OnlyMalformed (readFlow limit opening names tokens)
  pairs : ∀ opening names tokens, OnlyMalformed (readPairs limit opening names tokens)

theorem Composes.readNode (h : Composes limit) (blocks dashes : Bool) (names : Names)
    (tokens : List Token) : OnlyMalformed (readNode (limit + 1) blocks dashes names tokens) := by
  have hcollection {anchor : Option Text} {node : Node} {read : Names → ReadNode}
      {k : Node × Names × List Token → ReadNode} (hread : ∀ names, OnlyMalformed (read names))
      (hk : ∀ read, OnlyMalformed (k read)) :
      OnlyMalformed (names.add anchor node >>= fun names => read names >>= k) :=
    (onlyMalformed_add ..).bind fun names => (hread names).bind hk
  unfold Yaml.readNode
  split
  · split
    · exact onlyMalformed_ok _
    · exact onlyMalformed_malformed
  · refine (onlyMalformed_properties ..).bind fun given => ?_
    dsimp only
    split
    · exact (onlyMalformed_add ..).bind fun _ => onlyMalformed_ok _
    · exact hcollection (fun _ => (h.flow ..).bind fun _ => onlyMalformed_ok _)
        fun _ => onlyMalformed_ok _
    · exact hcollection (fun _ => (h.pairs ..).bind fun _ => onlyMalformed_ok _)
        fun _ => onlyMalformed_ok _
    · refine .ite (hcollection (fun _ => (h.dashes ..).bind fun _ => onlyMalformed_ok _)
        fun _ => onlyMalformed_ok _) (.ite (onlyMalformed_emptyNode ..) onlyMalformed_malformed)
    · refine .ite (hcollection (fun _ => (h.entries ..).bind fun _ => onlyMalformed_ok _)
        fun _ => onlyMalformed_ok _) (.ite (onlyMalformed_emptyNode ..) onlyMalformed_malformed)
    · refine .ite (hcollection (fun _ => (h.blockPairs ..).bind fun _ => onlyMalformed_ok _)
        fun _ => onlyMalformed_ok _) (.ite (onlyMalformed_emptyNode ..) onlyMalformed_malformed)
    · exact .ite (onlyMalformed_emptyNode ..) onlyMalformed_malformed

theorem Composes.readEntries (h : Composes limit) (names : Names) (tokens : List Token) :
    OnlyMalformed (readEntries (limit + 1) names tokens) := by
  unfold Yaml.readEntries
  split
  · exact onlyMalformed_ok _
  · dsimp only
    split
    · exact (h.entries ..).bind fun _ => onlyMalformed_ok _
    · exact (h.entries ..).bind fun _ => onlyMalformed_ok _
    · exact (h.node ..).bind fun _ => (h.entries ..).bind fun _ => onlyMalformed_ok _
  · exact onlyMalformed_malformed

theorem Composes.readDashes (h : Composes limit) (names : Names) (tokens : List Token) :
    OnlyMalformed (readDashes (limit + 1) names tokens) := by
  unfold Yaml.readDashes
  split
  · exact .ite ((h.dashes ..).bind fun _ => onlyMalformed_ok _)
      ((h.node ..).bind fun _ => (h.dashes ..).bind fun _ => onlyMalformed_ok _)
  · exact onlyMalformed_ok _

/-- What comes behind the value of a key, whether it has one or not. -/
theorem Composes.valueBehind (h : Composes limit) (blocks dashes : Bool) (ends : List Token → Bool)
    {k : Node → Names → List Token → Except Fault α}
    (hk : ∀ value names rest, OnlyMalformed (k value names rest)) (names : Names)
    (tokens : List Token) : OnlyMalformed (do
      let (value, names, rest) ← match tokens with
        | .value :: rest =>
            if ends rest then pure (Node.absent, names, rest)
            else Yaml.readNode limit blocks dashes names rest
        | rest => pure (Node.absent, names, rest)
      k value names rest) := by
  dsimp only
  split
  · exact .ite (hk ..) ((h.node ..).bind fun _ => hk ..)
  · exact hk ..

theorem Composes.readBlockPairs (h : Composes limit) (names : Names) (tokens : List Token) :
    OnlyMalformed (readBlockPairs (limit + 1) names tokens) := by
  have hpair (key value : Node) (names : Names) (rest : List Token) : OnlyMalformed
      (Yaml.readBlockPairs limit names rest >>= fun read =>
        .ok (key :: read.1, value :: read.2.1, read.2.2)) :=
    (h.blockPairs ..).bind fun _ => onlyMalformed_ok _
  have hkey (key : Node) := h.valueBehind true true endsBlockEntry (hpair key)
  unfold Yaml.readBlockPairs
  split
  · exact onlyMalformed_ok _
  · exact .ite (hkey ..) ((h.node ..).bind fun key => hkey ..)
  · exact onlyMalformed_malformed

theorem Composes.readFlow (h : Composes limit) (opening : Bool) (names : Names)
    (tokens : List Token) : OnlyMalformed (readFlow (limit + 1) opening names tokens) := by
  have hnext (node : Node) (names : Names) (rest : List Token) : OnlyMalformed
      (Yaml.readFlow limit false names rest >>= fun read => .ok (node :: read.1, read.2)) :=
    (h.flow ..).bind fun _ => onlyMalformed_ok _
  have hkey (ends : List Token → Bool) (key : Node) := h.valueBehind false false ends fun value =>
    hnext (Node.flat .mapping [key] [value])
  unfold Yaml.readFlow
  dsimp only
  -- what may stand in front of a member, and then the member, if there is one
  split
  case h_4 => exact onlyMalformed_malformed
  all_goals
    refine OnlyMalformed.bind (onlyMalformed_ok _) fun tokens => ?_
    split
    · exact onlyMalformed_ok _
    · exact .ite (hkey ..) ((h.node ..).bind fun key => hkey ..)
    · exact (h.node ..).bind fun _ => hnext ..

theorem Composes.readPairs (h : Composes limit) (opening : Bool) (names : Names)
    (tokens : List Token) : OnlyMalformed (readPairs (limit + 1) opening names tokens) := by
  have hpair (key value : Node) (names : Names) (rest : List Token) : OnlyMalformed
      (Yaml.readPairs limit false names rest >>= fun read =>
        .ok (key :: read.1, value :: read.2.1, read.2.2)) :=
    (h.pairs ..).bind fun _ => onlyMalformed_ok _
  have hkey (ends : List Token → Bool) (key : Node) := h.valueBehind false false ends (hpair key)
  unfold Yaml.readPairs
  dsimp only
  split
  case h_4 => exact onlyMalformed_malformed
  all_goals
    refine OnlyMalformed.bind (onlyMalformed_ok _) fun tokens => ?_
    split
    · exact onlyMalformed_ok _
    · exact .ite (hkey ..) ((h.node ..).bind fun key => hkey ..)
    · exact (h.node ..).bind fun key => hpair _ _ _ _

theorem composes (limit : Nat) : Composes limit := by
  induction limit with
  | zero => constructor <;> intros <;> exact onlyMalformed_malformed
  | succ limit ih =>
      exact ⟨ih.readNode, ih.readEntries, ih.readDashes, ih.readBlockPairs, ih.readFlow,
        ih.readPairs⟩

-- =========================================================== documents

theorem onlyMalformed_readDirectives (versioned : Bool) (handles : List (Text × Text))
    (tokens : List Token) : OnlyMalformed (readDirectives versioned handles tokens) := by
  fun_induction readDirectives versioned handles tokens
  case case1 | case3 => exact onlyMalformed_malformed
  case case2 ih | case4 ih | case5 ih => exact ih
  case case6 => exact onlyMalformed_ok _

theorem onlyMalformed_endDocument (tokens : List Token) : OnlyMalformed (endDocument tokens) :=
  .ite (onlyMalformed_ok _) onlyMalformed_malformed

/-- Putting tokens together fails only because the document is malformed. -/
theorem onlyMalformed_ofTokens (tokens : List Token) : OnlyMalformed (Node.ofTokens tokens) := by
  have hend (node : Node) (rest : List Token) : OnlyMalformed (do
      endDocument rest
      return some node) :=
    (onlyMalformed_endDocument rest).bind fun _ => onlyMalformed_ok _
  have hnode (limit : Nat) (names : Names) (rest : List Token) :=
    (composes limit).node true false names rest
  unfold Node.ofTokens
  dsimp only
  split
  case h_1 => exact onlyMalformed_ok _
  case h_4 => exact (hnode ..).bind fun _ => hend ..
  case h_2 | h_3 =>
    refine (onlyMalformed_readDirectives ..).bind fun read => ?_
    split
    · exact .ite (hend ..) ((hnode ..).bind fun _ => hend ..)
    · exact onlyMalformed_malformed

end FeedSieve.Yaml

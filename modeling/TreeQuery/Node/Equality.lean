import TreeQuery.Node.Basic

/-!
# Equality of nodes

Two nodes are the same when they have the same kind and the same parts. Numbers compare by value, so
the two zeros are the same and a not-a-number is not the same as itself.
-/

namespace TreeQuery

/-- Equality of literal values. -/
def LiteralValue.same : LiteralValue → LiteralValue → Bool
  | .null, .null => true
  | .bool a, .bool b => a == b
  | .number a, .number b => a.same b
  | .text a, .text b => a == b
  | .composite a, .composite b => a.same b
  | _, _ => false

mutual

/-- Equality of nodes. -/
def Node.same : Node → Node → Bool
  | .mk kind parts, .mk other others =>
      if equal : kind = other then Parts.same parts (equal ▸ others) else false
  | .unsupported, .unsupported => true
  | _, _ => false

/-- Equality of parts. -/
def Parts.same {slots : List Slot} : Parts slots → Parts slots → Bool
  | .nil, .nil => true
  | .cons head tail, .cons other others => Part.same head other && Parts.same tail others

/-- Equality of single parts. -/
def Part.same {shape : Shape} : Part shape → Part shape → Bool
  | .node a, .node b => Node.same a b
  | .optNode none, .optNode none => true
  | .optNode (some a), .optNode (some b) => Node.same a b
  | .optNode _, .optNode _ => false
  | .nodes as, .nodes bs => Node.sameList as bs
  | .holes as, .holes bs => Node.sameHoles as bs
  | .flag a, .flag b => a == b
  | .text a, .text b => a == b
  | .optText a, .optText b => a == b
  | .textOrEmpty a, .textOrEmpty b => a == b
  | .choice a, .choice b => decide (a = b)
  | .literal a, .literal b => a.same b
  | .regex a, .regex b => a == b
  | .chunkText a, .chunkText b => a == b
  | .chunk a, .chunk b => a == b
  | .chunks as, .chunks bs => as == bs

/-- Equality of lists of nodes. -/
def Node.sameList : List Node → List Node → Bool
  | [], [] => true
  | a :: as, b :: bs => Node.same a b && Node.sameList as bs
  | _, _ => false

/-- Equality of lists of nodes with holes. -/
def Node.sameHoles : List (Option Node) → List (Option Node) → Bool
  | [], [] => true
  | none :: as, none :: bs => Node.sameHoles as bs
  | some a :: as, some b :: bs => Node.same a b && Node.sameHoles as bs
  | _, _ => false

end

end TreeQuery

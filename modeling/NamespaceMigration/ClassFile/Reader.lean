import NamespaceMigration.ClassFile.Fault

/-! Readers of big-endian numbers and byte runs from the front of a byte string. -/

namespace NamespaceMigration

abbrev Reader := StateT Bytes (Except ClassFault)

namespace Reader

def u1 : Reader UInt8
  | a :: s => .ok (a, s)
  | _ => .error .unexpectedEnd

def u2 : Reader UInt16
  | a :: b :: s => .ok (Bytes.joinBig16 a b, s)
  | _ => .error .unexpectedEnd

def u4 : Reader UInt32
  | a :: b :: c :: d :: s => .ok (Bytes.joinBig32 a b c d, s)
  | _ => .error .unexpectedEnd

def u8 : Reader UInt64 := do
  let high ← u4
  let low ← u4
  return Bytes.joinBig64 high low

def bytes (n : Nat) : Reader Bytes := fun s =>
  let part := s.take n
  if part.length = n then .ok (part, s.drop n) else .error .unexpectedEnd

def finish : Reader Unit
  | [] => .ok ((), [])
  | s => .error (.trailingBytes s.length)

def timesFrom {α : Type} (item : Reader α) : Nat → List α → Reader (List α)
  | 0, acc => return acc.reverse
  | n + 1, acc => do
    let a ← item
    timesFrom item n (a :: acc)

def times {α : Type} (n : Nat) (item : Reader α) : Reader (List α) := timesFrom item n []

def run {α : Type} (item : Reader α) (s : Bytes) : Except ClassFault α :=
  match (do let a ← item; finish; return a : Reader α) s with
  | .ok (a, _) => .ok a
  | .error e => .error e

end Reader

end NamespaceMigration

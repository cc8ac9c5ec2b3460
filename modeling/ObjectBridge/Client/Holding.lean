import ObjectBridge.Client.State

/-!
# Holding proxies

Proxies are counted by their holders. Taking hold of a value counts for every proxy in it. Giving a
value up takes those counts back; a proxy that nobody holds any more lets go of its object, which
sends one release while the session is up, and then gives up the values kept on it. A proxy that is
kept on itself is never given up.
-/

namespace ObjectBridge

mutual

/-- The number of parts of a value, itself included. -/
def Value.weight : Value → Nat
  | .list items => 1 + Value.weightAll items
  | _ => 1

/-- The number of parts of a list of values. -/
def Value.weightAll : List Value → Nat
  | [] => 0
  | v :: vs => Value.weight v + Value.weightAll vs

end

theorem Value.weight_pos (v : Value) : 0 < v.weight := by
  cases v <;> simp only [Value.weight] <;> omega

theorem Value.weightAll_append (vs ws : List Value) :
    Value.weightAll (vs ++ ws) = Value.weightAll vs + Value.weightAll ws := by
  induction vs with
  | nil => simp [Value.weightAll]
  | cons v vs ih => simp only [List.cons_append, Value.weightAll, ih]; omega

namespace Cell

def kept (cell : Cell) : List Value := cell.locals.map (·.2)

/-- The cell of a proxy that nobody holds any more. -/
def finished (cell : Cell) : Cell := { cell with holders := 0, released := true, locals := [] }

end Cell

/-- The number of parts of all values kept on proxies. -/
def keptWeight : List Cell → Nat
  | [] => 0
  | cell :: cells => Value.weightAll cell.kept + keptWeight cells

theorem keptWeight_set (cells : List Cell) (i : Nat) (old new : Cell) (h : cells[i]? = some old) :
    keptWeight (cells.set i new) + Value.weightAll old.kept =
      keptWeight cells + Value.weightAll new.kept := by
  induction cells generalizing i with
  | nil => simp at h
  | cons cell cells ih =>
    cases i with
    | zero =>
      simp only [List.getElem?_cons_zero, Option.some.injEq] at h
      subst h
      simp only [List.set_cons_zero, keptWeight]
      omega
    | succ i =>
      simp only [List.getElem?_cons_succ] at h
      have := ih i h
      simp only [List.set_cons_succ, keptWeight] at this ⊢
      omega

namespace Client

/-- Gives up the pending values. `gone` collects the proxies that thereby have to let go of their
objects, the latest first. -/
def reclaim (pending : List Value) (cells : Array Cell) (gone : List Proxy) :
    Array Cell × List Proxy :=
  match pending with
  | [] => (cells, gone.reverse)
  | .list items :: rest => reclaim (items ++ rest) cells gone
  | .object p :: rest =>
    match _ : cells[p.key]? with
    | none => reclaim rest cells gone
    | some cell =>
      if cell.holders = 0 then reclaim rest cells gone
      else if cell.holders = 1 then
        reclaim (cell.kept ++ rest) (cells.setIfInBounds p.key cell.finished)
          (if cell.released then gone else cell.proxy :: gone)
      else
        reclaim rest (cells.setIfInBounds p.key { cell with holders := cell.holders - 1 }) gone
  | _ :: rest => reclaim rest cells gone
termination_by Value.weightAll pending + keptWeight cells.toList
decreasing_by
  · simp only [Value.weightAll_append, Value.weightAll, Value.weight]
    omega
  · simp only [Value.weightAll, Value.weight]
    omega
  · simp only [Value.weightAll, Value.weight]
    omega
  · have hw := keptWeight_set cells.toList p.key cell cell.finished (by simpa using ‹cells[p.key]? = some cell›)
    simp only [Value.weightAll_append, Value.weightAll, Value.weight, Array.toList_setIfInBounds]
    simp only [Cell.finished, Cell.kept, List.map_nil, Value.weightAll] at hw ⊢
    omega
  · have hw := keptWeight_set cells.toList p.key cell { cell with holders := cell.holders - 1 }
      (by simpa using ‹cells[p.key]? = some cell›)
    simp only [Value.weightAll, Value.weight, Array.toList_setIfInBounds]
    simp only [Cell.kept] at hw
    omega
  · have hv := Value.weight_pos ‹Value›
    simp only [Value.weightAll]
    omega

/-- Forgets a proxy that has let go of its object, and tells the server while the session is up. A
failure to tell it is not reported. -/
def letGo (c : Client) (p : Proxy) : Client :=
  c.modifySession p.session fun session =>
    let session := session.forget p
    if session.isUp then
      match Session.post (.release p.id) session with
      | .ok () session => session
      | .error _ session => session
    else session

def discardAll (c : Client) (vs : List Value) : Client :=
  let (cells, gone) := reclaim vs c.cells []
  gone.foldl letGo { c with cells }

def discard (c : Client) (v : Value) : Client := c.discardAll [v]

/-- Counts one more holder of a proxy. -/
def holdProxy (c : Client) (p : Proxy) : Client :=
  c.modifyCell p fun cell => { cell with holders := cell.holders + 1 }

/-- Counts one more holder of every proxy in a value. -/
def hold (c : Client) (v : Value) : Client := v.proxies.foldl holdProxy c

/-- The proxy that stands for an object of a session, if there is one. -/
def standing? (c : Client) (s : Nat) (id : Int32) : Option Proxy := do
  let session ← c.sessions[s]?
  let key ← session.table.lookup id
  let cell ← c.cells[key]?
  if cell.holders ≠ 0 ∧ cell.released = false then some cell.proxy else none

/-- A proxy for an object: the one that stands for it, or a new one. The caller holds it. -/
def objectFor (c : Client) (s : Nat) (id : Int32) (className : Option String) : Proxy × Client :=
  match c.standing? s id with
  | some p => (p, c.holdProxy p)
  | none =>
    let p : Proxy := { key := c.cells.size, session := s, id, className }
    (p, { c.modifySession s (·.enter id p.key) with
      cells := c.cells.push { proxy := p, since := c.sentBy s } })

end Client

end ObjectBridge

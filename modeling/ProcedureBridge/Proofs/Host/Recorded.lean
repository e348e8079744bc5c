import ProcedureBridge.Proofs.Bridge.Action

/-! # Recorded hosts

Any host can be watched: a recorded host keeps, beside the host itself, every exchange that the
bridge has had with it. What holds of the record of every run is proved one exchange at a time. -/

namespace ProcedureBridge

/-- What a host was asked, and as far as it matters what it answered. -/
inductive HostExchange
  | began (answer : Except Report SubxactId)
  | released (id : SubxactId) (answer : Except Report Unit)
  | rolledBack (id : SubxactId) (answer : Except Report Unit)
  | delivered (report : Report)
  | polled
  | lookedUp (id : ProcedureId)
  | listed (schema : String)
deriving DecidableEq

namespace HostExchange

/-- A subtransaction was begun. -/
def isBegin : HostExchange → Bool
  | began (.ok _) => true
  | _ => false

/-- The host was told how a subtransaction ends. -/
def isEnd : HostExchange → Bool
  | released .. | rolledBack .. => true
  | _ => false

def isListing : HostExchange → Bool
  | listed _ => true
  | _ => false

end HostExchange

/-- A host and its record, the oldest exchange first. -/
structure Recorded (σ : Type) where
  host : σ
  log : List HostExchange := []

namespace Recorded

variable {σ : Type}

/-- The host after one more exchange. -/
def add (r : Recorded σ) (host : σ) (x : HostExchange) : Recorded σ := ⟨host, r.log ++ [x]⟩

instance [Host σ] : Host (Recorded σ) where
  beginSubxact r :=
    let (answer, host) := Host.beginSubxact r.host
    (answer, r.add host (.began answer))
  releaseSubxact id r :=
    let (answer, host) := Host.releaseSubxact id r.host
    (answer, r.add host (.released id answer))
  rollbackSubxact id r :=
    let (answer, host) := Host.rollbackSubxact id r.host
    (answer, r.add host (.rolledBack id answer))
  deliver report r :=
    let (signals, host) := Host.deliver report r.host
    (signals, r.add host (.delivered report))
  takeInterrupt r :=
    let (asked, host) := Host.takeInterrupt r.host
    (asked, r.add host .polled)
  lookup id r :=
    let (answer, host) := Host.lookup id r.host
    (answer, r.add host (.lookedUp id))
  procedures schema r :=
    let (answer, host) := Host.procedures schema r.host
    (answer, r.add host (.listed schema))

theorem beginSubxact_eq [Host σ] {r : Recorded σ} {answer : Except Report SubxactId} {host : σ}
    (h : Host.beginSubxact r.host = (answer, host)) :
    Host.beginSubxact r = (answer, r.add host (.began answer)) := by
  change ((Host.beginSubxact r.host).1, r.add (Host.beginSubxact r.host).2
    (.began (Host.beginSubxact r.host).1)) = _
  rw [h]

theorem rollbackSubxact_eq [Host σ] {r : Recorded σ} {id : SubxactId} {answer : Except Report Unit}
    {host : σ} (h : Host.rollbackSubxact id r.host = (answer, host)) :
    Host.rollbackSubxact id r = (answer, r.add host (.rolledBack id answer)) := by
  change ((Host.rollbackSubxact id r.host).1, r.add (Host.rollbackSubxact id r.host).2
    (.rolledBack id (Host.rollbackSubxact id r.host).1)) = _
  rw [h]

theorem releaseSubxact_eq [Host σ] {r : Recorded σ} {id : SubxactId} {answer : Except Report Unit}
    {host : σ} (h : Host.releaseSubxact id r.host = (answer, host)) :
    Host.releaseSubxact id r = (answer, r.add host (.released id answer)) := by
  change ((Host.releaseSubxact id r.host).1, r.add (Host.releaseSubxact id r.host).2
    (.released id (Host.releaseSubxact id r.host).1)) = _
  rw [h]

end Recorded

variable {σ : Type}

/-- The property of the fatal condition, the scopes and the record is kept by every exchange that
an action can have. -/
structure Logged (Q : Option Exception → ScopeStack → List HostExchange → Prop) : Prop where
  mark : ∀ {f s l}, Q f s l → Q f s.markFailed l
  rollback : ∀ {f s l top outer} (answer : Except Report Unit), s.scopes = top :: outer →
    Q f s l → Q f { s with scopes := outer } (l ++ [.rolledBack top.subxact answer])
  release : ∀ {f s l top outer} (answer : Except Report Unit), s.scopes = top :: outer →
    top.failed = false → Q f s l →
    Q f { s with scopes := outer } (l ++ [.released top.subxact answer])
  list : ∀ {f s l} (schema : String), Q f s l → Q f s (l ++ [.listed schema])
  push : ∀ {s l} (id : SubxactId), Q none s l → Q none (s.push id).2 (l ++ [.began (.ok id)])
  ask : ∀ {s l x}, x.isBegin = false → x.isEnd = false → Q none s l → Q none s (l ++ [x])
  condemn : ∀ {s l} (e : Exception), Q none s l → Q (some e) s l

variable [Host σ] {Q : Option Exception → ScopeStack → List HostExchange → Prop}

theorem Logged.lasting (hQ : Logged Q) :
    Lasting fun f (t : ScopeStack × Recorded σ) => Q f t.1 t.2.log where
  mark := hQ.mark
  rollback := by
    intro f s r top outer hc hs
    exact ScopeStack.rollback_keeps (P := fun t : ScopeStack × Recorded σ => Q f t.1 t.2.log)
      hQ.mark (hQ.rollback _ hc hs)
  release := by
    intro f s r top outer hc hf hs
    exact ScopeStack.release_keeps (P := fun t : ScopeStack × Recorded σ => Q f t.1 t.2.log)
      hQ.mark (hQ.release _ hc hf hs)
  list schema hs := hQ.list schema hs
  poll hs := hQ.ask rfl rfl hs
  enter := by
    intro s r hs
    refine ScopeStack.enter_keeps (P := fun t : ScopeStack × Recorded σ => Q none t.1 t.2.log) hs
      ?_ ?_
    · intro r' report hr
      obtain ⟨ha, rfl⟩ := Prod.mk.inj hr
      exact hQ.mark (hQ.ask (by rw [ha]; rfl) rfl hs)
    · intro r' id _ hr
      obtain ⟨ha, rfl⟩ := Prod.mk.inj hr
      have hpush := hQ.push id hs
      rw [← ha] at hpush
      exact hpush
  deliver _ hs := hQ.ask rfl rfl hs
  lookup _ hs := hQ.ask rfl rfl hs
  condemn e hs := hQ.condemn e hs

end ProcedureBridge

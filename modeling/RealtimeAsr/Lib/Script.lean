import RealtimeAsr.Lib.Prog
import Mathlib.Data.List.Infix

/-!
This module contains scripts, that is lists of actions which a program performs one after the other
until one of them throws, and which of the actions are begun in a run.
-/

namespace Prog

variable {σ α β γ ε : Type}

theorem bind_pure_eq (x : Prog σ α) : (x >>= pure) = x := by
  funext s
  rw [bind_apply]
  cases x s with
  | mk r s' =>
    cases r with
    | some a => rfl
    | none => rfl

theorem bind_assoc_eq (x : Prog σ α) (f : α → Prog σ β) (g : β → Prog σ γ)
    : ((x >>= f) >>= g) = (x >>= fun a => f a >>= g) := by
  funext s
  rw [bind_apply, bind_apply, bind_apply]
  cases x s with
  | mk r s' =>
    cases r with
    | some a => rfl
    | none => rfl

variable (perform : ε → Prog σ Unit)

def script : List ε → Prog σ Unit
  | [] => pure ()
  | e :: es => perform e >>= fun _ => script es

/--
The actions that are begun from the state `s`, the last of them throws if they are not all.
-/
def begun : List ε → σ → List ε
  | [], _ => []
  | e :: es, s =>
    match perform e s with
    | (some _, s') => e :: begun es s'
    | (none, _) => [e]

theorem script_singleton (e : ε) : script perform [e] = perform e := bind_pure_eq _

theorem script_append (es fs : List ε)
    : script perform (es ++ fs) = (script perform es >>= fun _ => script perform fs) := by
  induction es with
  | nil => rfl
  | cons e es ih =>
    show (perform e >>= fun _ => script perform (es ++ fs)) = _
    rw [ih]
    exact (bind_assoc_eq _ _ _).symm

variable {perform} {e : ε} {es : List ε} {s s' : σ}

theorem script_returns (h : perform e s = (some (), s'))
    : script perform (e :: es) s = script perform es s' := by
  show (perform e >>= fun _ => script perform es) s = _
  rw [bind_apply, h]

theorem script_throws (h : perform e s = (none, s')) : script perform (e :: es) s = (none, s') := by
  show (perform e >>= fun _ => script perform es) s = _
  rw [bind_apply, h]

theorem begun_returns (h : perform e s = (some (), s'))
    : begun perform (e :: es) s = e :: begun perform es s' := by
  rw [begun, h]

theorem begun_throws (h : perform e s = (none, s')) : begun perform (e :: es) s = [e] := by
  rw [begun, h]

theorem head_mem_begun (e : ε) (es : List ε) (s : σ) : e ∈ begun perform (e :: es) s := by
  rw [begun]
  split
  . exact List.mem_cons_self
  . exact List.mem_cons_self

theorem begun_prefix (es : List ε) (s : σ) : begun perform es s <+: es := by
  induction es generalizing s with
  | nil => exact List.prefix_refl _
  | cons e es ih =>
    unfold begun
    split
    . exact List.prefix_cons_inj _ |>.mpr (ih _)
    . exact List.cons_prefix_cons.mpr ⟨rfl, List.nil_prefix⟩

end Prog

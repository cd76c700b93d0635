import HostSteward.OrderedMap
import HostSteward.Json.Record

/-!
# Server identities and process names

A server is identified by its host, its group and its name. The supervisor knows it by a
process name that is formed from the server's name alone.
-/

namespace HostSteward

structure Identity where
  host : String
  group : String
  server : String
deriving DecidableEq

def processMark : String := "Server:"

def processName (server : String) : String := processMark ++ server

/-- The server that a process name belongs to; a bare mark names none. -/
def serverOfProcess? (process : String) : Option String :=
  let mark := processMark.toList
  let cs := process.toList
  if mark.isPrefixOf cs && mark.length < cs.length then
    some (String.ofList (cs.drop mark.length))
  else none

theorem serverOfProcess?_processName {server : String} (h : server ≠ "") :
    serverOfProcess? (processName server) = some server := by
  have hne : server.toList ≠ [] := fun e => h (String.toList_inj.1 (by simpa using e))
  have hpos : 0 < server.toList.length := List.length_pos_iff.2 hne
  simp only [serverOfProcess?, processName, String.toList_append]
  rw [if_pos]
  · simp
  · simp only [List.isPrefixOf_iff_prefix, List.prefix_append, List.length_append, Bool.and_eq_true,
      decide_eq_true_eq, true_and]
    omega

theorem processName_of_serverOfProcess? {process server : String}
    (h : serverOfProcess? process = some server) : processName server = process := by
  unfold serverOfProcess? at h
  simp only at h
  split at h
  next hmark =>
    obtain rfl := Option.some.inj h
    rw [Bool.and_eq_true, List.isPrefixOf_iff_prefix] at hmark
    obtain ⟨⟨rest, hrest⟩, -⟩ := hmark
    rw [← String.toList_inj, processName, String.toList_append, String.toList_ofList, ← hrest,
      List.drop_left]
  · cases h

namespace Identity

def processName (id : Identity) : String := HostSteward.processName id.server

/-- The three parts, separated by slashes. -/
def text (id : Identity) : String := id.host ++ "/" ++ id.group ++ "/" ++ id.server

/-- Identities are compared by host, then by group, then by server. -/
def lt (a b : Identity) : Prop :=
  a.host < b.host ∨ a.host = b.host ∧
    (a.group < b.group ∨ a.group = b.group ∧ a.server < b.server)

instance : LT Identity := ⟨lt⟩

instance : DecidableLT Identity := fun a b => inferInstanceAs (Decidable
  (a.host < b.host ∨ a.host = b.host ∧
    (a.group < b.group ∨ a.group = b.group ∧ a.server < b.server)))

instance : LinearKey Identity where
  irrefl a h := by
    rcases h with h | ⟨_, h | ⟨_, h⟩⟩ <;> exact String.lt_irrefl _ h
  trans {a b c} h₁ h₂ := by
    obtain ⟨ah, ag, as⟩ := a
    obtain ⟨bh, bg, bs⟩ := b
    obtain ⟨ch, cg, cs⟩ := c
    rcases h₁ with h₁ | ⟨e₁, h₁ | ⟨f₁, h₁⟩⟩ <;> rcases h₂ with h₂ | ⟨e₂, h₂ | ⟨f₂, h₂⟩⟩ <;>
      simp only at * <;> subst_vars
    · exact Or.inl (String.lt_trans h₁ h₂)
    · exact Or.inl h₁
    · exact Or.inl h₁
    · exact Or.inl h₂
    · exact Or.inr ⟨rfl, Or.inl (String.lt_trans h₁ h₂)⟩
    · exact Or.inr ⟨rfl, Or.inl h₁⟩
    · exact Or.inl h₂
    · exact Or.inr ⟨rfl, Or.inl h₂⟩
    · exact Or.inr ⟨rfl, Or.inr ⟨rfl, String.lt_trans h₁ h₂⟩⟩
  connected {a b} h₁ h₂ := by
    have hh : a.host = b.host :=
      LinearKey.connected (fun h => h₁ (Or.inl h)) (fun h => h₂ (Or.inl h))
    have hg : a.group = b.group :=
      LinearKey.connected (fun h => h₁ (Or.inr ⟨hh, Or.inl h⟩))
        (fun h => h₂ (Or.inr ⟨hh.symm, Or.inl h⟩))
    have hs : a.server = b.server :=
      LinearKey.connected (fun h => h₁ (Or.inr ⟨hh, Or.inr ⟨hg, h⟩⟩))
        (fun h => h₂ (Or.inr ⟨hh.symm, Or.inr ⟨hg.symm, h⟩⟩))
    cases a
    cases b
    simp_all

def toJson (id : Identity) : Json :=
  .object [("host_name", .string id.host), ("server_group_name", .string id.group),
    ("server_name", .string id.server)]

def ofJson? (j : Json) : Option Identity := do
  let r ← j.record? ["host_name", "server_group_name", "server_name"]
  return {
    host := ← r.required "host_name" Json.string?
    group := ← r.required "server_group_name" Json.string?
    server := ← r.required "server_name" Json.string?
  }

end Identity

end HostSteward

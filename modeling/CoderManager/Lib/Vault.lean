import Mathlib.Data.List.Basic
import Mathlib.Data.List.Nodup
import Mathlib.Tactic.Common

/-!
# Sealed values

Places keep envelopes: a version, a nonce and a ciphertext whose associated data names the
owner of the value. Whoever can write to the places may put any bytes anywhere; what is
unsealed for an owner was sealed for that owner, as long as nobody forges a ciphertext.
-/
namespace Vaults

abbrev Bytes := List UInt8

/-- Authenticated encryption: decryption returns exactly what was encrypted under the same
key and nonce for the same associated data. -/
structure Aead where
  encrypt (key nonce plaintext data : Bytes) : Bytes
  decrypt (key nonce ciphertext data : Bytes) : Option Bytes
  length_encrypt : ∀ key nonce plaintext data,
    plaintext.length < (encrypt key nonce plaintext data).length
  decrypt_eq_some : ∀ key nonce ciphertext plaintext data,
    decrypt key nonce ciphertext data = some plaintext ↔
      ciphertext = encrypt key nonce plaintext data

/-- The envelopes of the owners `κ`. -/
structure Format (κ : Type) where
  version : UInt8
  nonceLength : Nat
  data : κ → Bytes
  data_injective : Function.Injective data

variable {κ π : Type} {f : Format κ} {aead : Aead}

abbrev Format.Nonce (f : Format κ) := { nonce : Bytes // nonce.length = f.nonceLength }

namespace Format
variable (f) (aead)

def enclose (key : Bytes) (nonce : f.Nonce) (plaintext : Bytes) (owner : κ) : Bytes :=
  f.version :: (nonce.val ++ aead.encrypt key nonce plaintext (f.data owner))

def disclose (key envelope : Bytes) (owner : κ) : Option Bytes :=
  if envelope.length ≤ 1 + f.nonceLength ∨ envelope.head? ≠ some f.version then none
  else
    aead.decrypt key ((envelope.drop 1).take f.nonceLength) (envelope.drop (1 + f.nonceLength))
      (f.data owner)

variable {f aead}

theorem disclose_enclose (key key' : Bytes) (nonce : f.Nonce) (plaintext : Bytes)
    (owner owner' : κ) : f.disclose aead key' (f.enclose aead key nonce plaintext owner) owner' =
      aead.decrypt key' nonce (aead.encrypt key nonce plaintext (f.data owner))
        (f.data owner') := by
  have hpositive := aead.length_encrypt key nonce plaintext (f.data owner)
  have hlong : ¬(f.enclose aead key nonce plaintext owner).length ≤ 1 + f.nonceLength := by
    simp only [enclose, List.length_cons, List.length_append, nonce.property]
    omega
  have htake : (f.enclose aead key nonce plaintext owner).drop (1 + f.nonceLength) =
      aead.encrypt key nonce plaintext (f.data owner) := by
    rw [enclose, Nat.add_comm, List.drop_succ_cons]
    exact List.drop_left' nonce.property
  have hnonce : ((f.enclose aead key nonce plaintext owner).drop 1).take f.nonceLength = nonce := by
    rw [enclose, List.drop_succ_cons, List.drop_zero]
    exact List.take_left' nonce.property
  have hformat : ¬((f.enclose aead key nonce plaintext owner).length ≤ 1 + f.nonceLength ∨
      (f.enclose aead key nonce plaintext owner).head? ≠ some f.version) := by
    rintro (hshort | hversion)
    · exact hlong hshort
    · exact hversion rfl
  rw [disclose, if_neg hformat, htake, hnonce]

theorem disclose_eq_some {key envelope plaintext : Bytes} {owner : κ} :
    f.disclose aead key envelope owner = some plaintext ↔
      ∃ nonce : f.Nonce, envelope = f.enclose aead key nonce plaintext owner := by
  constructor
  · intro h
    unfold disclose at h
    split at h
    · cases h
    · rename_i hformat
      have hlong : 1 + f.nonceLength < envelope.length := by omega
      have hhead : envelope.head? = some f.version := by
        by_contra hne
        exact hformat (.inr hne)
      cases envelope with
      | nil => cases hhead
      | cons version rest =>
          cases hhead
          rw [List.length_cons] at hlong
          refine ⟨⟨rest.take f.nonceLength, ?_⟩, ?_⟩
          · rw [List.length_take]
            omega
          · rw [aead.decrypt_eq_some] at h
            rw [List.drop_succ_cons, List.drop_zero, Nat.add_comm, List.drop_succ_cons] at h
            rw [enclose, ← h, List.take_append_drop]
  · rintro ⟨nonce, rfl⟩
    rw [disclose_enclose, aead.decrypt_eq_some]

end Format

/-- One event of a history: a value is sealed for its owner and put into a place, somebody
writes any bytes to a place, or what a place keeps is unsealed for an owner. -/
inductive Event (f : Format κ) (π : Type) where
  | seals (key : Bytes) (place : π) (owner : κ) (nonce : f.Nonce) (plaintext : Bytes)
  | overwrites (place : π) (bytes : Option Bytes)
  | unseals (key : Bytes) (place : π) (owner : κ)

/-- One call of the encryption. -/
structure Query where
  key : Bytes
  nonce : Bytes
  plaintext : Bytes
  data : Bytes

namespace Event

def query : Event f π → Option Query
  | seals key _ owner nonce plaintext => some ⟨key, nonce, plaintext, f.data owner⟩
  | overwrites _ _ | unseals _ _ _ => none

def writes : Event f π → Option π
  | seals _ place _ _ _ | overwrites place _ => some place
  | unseals _ _ _ => none

variable [DecidableEq π] (aead)

def apply (places : π → Option Bytes) : Event f π → π → Option Bytes
  | seals key place owner nonce plaintext =>
      Function.update places place (some (f.enclose aead key nonce plaintext owner))
  | overwrites place bytes => Function.update places place bytes
  | unseals _ _ _ => places

end Event

section Queries
variable {t : List (Event f π)} {key plaintext : Bytes} {owner : κ}

def issued (t : List (Event f π)) : List Query := t.filterMap Event.query

def Fresh (t : List (Event f π)) : Prop := ((issued t).map Query.nonce).Nodup

theorem mem_issued {nonce : f.Nonce} :
    (⟨key, nonce, plaintext, f.data owner⟩ : Query) ∈ issued t ↔
      ∃ place, Event.seals key place owner nonce plaintext ∈ t := by
  constructor
  · intro h
    obtain ⟨e, he, hquery⟩ := List.mem_filterMap.mp h
    cases e with
    | seals key' place owner' nonce' plaintext' =>
        simp only [Event.query, Option.some.injEq, Query.mk.injEq] at hquery
        obtain ⟨rfl, hnonce, rfl, hdata⟩ := hquery
        cases Subtype.ext hnonce
        cases f.data_injective hdata
        exact ⟨place, he⟩
    | overwrites => cases hquery
    | unseals => cases hquery
  · rintro ⟨place, h⟩
    exact List.mem_filterMap.mpr ⟨_, h, rfl⟩

theorem Fresh.eq (fresh : Fresh t) {key' plaintext' : Bytes} {owner' : κ} {place place' : π}
    {nonce : f.Nonce} (h : .seals key place owner nonce plaintext ∈ t)
    (h' : .seals key' place' owner' nonce plaintext' ∈ t) :
    key = key' ∧ owner = owner' ∧ plaintext = plaintext' := by
  have hquery := List.inj_on_of_nodup_map fresh (mem_issued.mpr ⟨place, h⟩)
    (mem_issued.mpr ⟨place', h'⟩) rfl
  injection hquery with hkey _ hplaintext hdata
  exact ⟨hkey, f.data_injective hdata, hplaintext⟩

end Queries

section Histories
variable [DecidableEq π] (aead)

def contents (t : List (Event f π)) : π → Option Bytes :=
  t.foldl (Event.apply aead) fun _ => none

/-- Whatever decryption accepts when a value is unsealed has been encrypted before. -/
def Unforged (t : List (Event f π)) : Prop :=
  ∀ before after key place owner, t = before ++ .unseals key place owner :: after →
    ∀ (nonce : f.Nonce) (ciphertext plaintext : Bytes),
      contents aead before place = some (f.version :: (nonce.val ++ ciphertext)) →
      aead.decrypt key nonce ciphertext (f.data owner) = some plaintext →
      ⟨key, nonce, plaintext, f.data owner⟩ ∈ issued before

variable {aead} {t before after : List (Event f π)} {key envelope plaintext : Bytes}
variable {owner : κ} {place : π}

theorem contents_append (t t' : List (Event f π)) :
    contents aead (t ++ t') = t'.foldl (Event.apply aead) (contents aead t) := List.foldl_append

/-- A value that is unsealed for an owner was sealed for that owner, under the same key. -/
theorem Unforged.sealed (unforged : Unforged aead t)
    (split : t = before ++ .unseals key place owner :: after)
    (kept : contents aead before place = some envelope)
    (opened : f.disclose aead key envelope owner = some plaintext) :
    ∃ place' nonce, .seals key place' owner nonce plaintext ∈ before ∧
      envelope = f.enclose aead key nonce plaintext owner := by
  obtain ⟨nonce, rfl⟩ := Format.disclose_eq_some.mp opened
  have hissued := unforged before after key place owner split nonce _ plaintext kept
    ((aead.decrypt_eq_some ..).mpr rfl)
  obtain ⟨place', hmem⟩ := mem_issued.mp hissued
  exact ⟨place', nonce, hmem, rfl⟩

/-- Wherever an envelope has got to, it opens for its owner and for nobody else. -/
theorem Unforged.disclose_moved [DecidableEq κ] (unforged : Unforged aead t) (fresh : Fresh t)
    (split : t = before ++ .unseals key place owner :: after) {key' : Bytes} {owner' : κ}
    {place' : π} {nonce : f.Nonce} (made : .seals key' place' owner' nonce plaintext ∈ before)
    (kept : contents aead before place = some (f.enclose aead key' nonce plaintext owner')) :
    f.disclose aead key (f.enclose aead key' nonce plaintext owner') owner =
      if key = key' ∧ owner = owner' then some plaintext else none := by
  split
  · rename_i hsame
    obtain ⟨rfl, rfl⟩ := hsame
    exact Format.disclose_eq_some.mpr ⟨nonce, rfl⟩
  · rename_i hother
    cases hopen : f.disclose aead key (f.enclose aead key' nonce plaintext owner') owner with
    | none => rfl
    | some opened =>
        obtain ⟨place'', nonce', hmem, heq⟩ := unforged.sealed split kept hopen
        have hnonce : nonce = nonce' := by
          have htail := (List.cons.inj heq).2
          exact Subtype.ext (List.append_inj htail
            (nonce.property.trans nonce'.property.symm)).1
        have hin {e : Event f π} (he : e ∈ before) : e ∈ t := by
          rw [split]
          exact List.mem_append_left _ he
        subst hnonce
        obtain ⟨rfl, rfl, -⟩ := fresh.eq (hin made) (hin hmem)
        exact absurd ⟨rfl, rfl⟩ hother

theorem apply_quiet {rest : List (Event f π)} (quiet : ∀ e ∈ rest, e.writes ≠ some place)
    (places : π → Option Bytes) : rest.foldl (Event.apply aead) places place = places place := by
  induction rest generalizing places with
  | nil => rfl
  | cons e rest ih =>
      rw [List.foldl_cons, ih fun e' he' => quiet e' (List.mem_cons_of_mem _ he')]
      have he := quiet e List.mem_cons_self
      cases e with
      | seals =>
          apply Function.update_of_ne
          rintro rfl
          exact he rfl
      | overwrites =>
          apply Function.update_of_ne
          rintro rfl
          exact he rfl
      | unseals => rfl

theorem contents_latest {nonce : f.Nonce} {rest : List (Event f π)}
    (quiet : ∀ e ∈ rest, e.writes ≠ some place) :
    contents aead (before ++ .seals key place owner nonce plaintext :: rest) place =
      some (f.enclose aead key nonce plaintext owner) := by
  rw [contents_append, List.foldl_cons, apply_quiet quiet]
  exact Function.update_self ..

end Histories

end Vaults

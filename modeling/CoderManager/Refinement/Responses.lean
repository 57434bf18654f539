import CoderManager.Domains.CoderClient
import CoderManager.Lib.Dict
import CoderManager.Refinement.Requests
import Mathlib.Data.String.Basic

/-!
# Accepted responses

What a value the Coder client returns is known to satisfy, whatever the response
it was decoded from.
-/
namespace CoderManager.CoderClient
open Dicts

instance : Std.Total parameterBefore := by
  refine ⟨fun a b => ?_⟩
  rcases lt_trichotomy a.1 b.1 with hlt | heq | hlt
  · exact .inl (.inl hlt)
  · rcases le_total a.2 b.2 with hle | hle
    · exact .inl (.inr ⟨heq, hle⟩)
    · exact .inr (.inr ⟨heq.symm, hle⟩)
  · exact .inr (.inl hlt)

instance : IsTrans (String × String) parameterBefore := by
  refine ⟨fun a b c hab hbc => ?_⟩
  rcases hab with hab | ⟨hab, hab'⟩ <;> rcases hbc with hbc | ⟨hbc, hbc'⟩
  · exact .inl (hab.trans hbc)
  · exact .inl (hbc ▸ hab)
  · exact .inl (hab ▸ hbc)
  · exact .inr ⟨hab.trans hbc, hab'.trans hbc'⟩

variable {response : Response}

/-- An accepted page holds as many workspaces as the limit and the count call for. -/
theorem workspaces_accepted {uuid : Json → Option UUID} {offset limit : Nat}
    {page : CoderWorkspacePage} (h : workspaces uuid offset limit response = .ok page) :
    page.items.length = min limit (page.count - offset) := by
  simp only [workspaces, bind_eq_ok] at h
  obtain ⟨-, -, payload, -, h⟩ := h
  split at h
  · obtain ⟨items, -, h⟩ := bind_eq_ok.mp h
    split at h
    · cases h
    · rename_i hcomplete
      rw [← pure_eq_ok.mp h]
      exact not_not.mp hcomplete
  · cases h

end CoderManager.CoderClient

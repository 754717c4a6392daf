/-
Colours by name. A family has eleven shades; `lookup?` knows black, white and every family with a shade. `channels?`
reads the three channels of a hexadecimal colour with three or six digits.
-/
import TsxWorkbench.Number.Reader
import TsxWorkbench.Text.Pieces

namespace TsxWorkbench.Utility

open Number Text

def shades : List String := ["50", "100", "200", "300", "400", "500", "600", "700", "800", "900", "950"]

/-- the shades of every colour family, from light to dark -/
def palette : List (String × List String) :=
  [("slate", ["#f8fafc", "#f1f5f9", "#e2e8f0", "#cbd5e1", "#94a3b8", "#64748b",
    "#475569", "#334155", "#1e293b", "#0f172a", "#020617"]),
   ("gray", ["#f9fafb", "#f3f4f6", "#e5e7eb", "#d1d5db", "#9ca3af", "#6b7280",
    "#4b5563", "#374151", "#1f2937", "#111827", "#030712"]),
   ("zinc", ["#fafafa", "#f4f4f5", "#e4e4e7", "#d4d4d8", "#a1a1aa", "#71717a",
    "#52525b", "#3f3f46", "#27272a", "#18181b", "#09090b"]),
   ("red", ["#fef2f2", "#fee2e2", "#fecaca", "#fca5a5", "#f87171", "#ef4444",
    "#dc2626", "#b91c1c", "#991b1b", "#7f1d1d", "#450a0a"]),
   ("orange", ["#fff7ed", "#ffedd5", "#fed7aa", "#fdba74", "#fb923c", "#f97316",
    "#ea580c", "#c2410c", "#9a3412", "#7c2d12", "#431407"]),
   ("amber", ["#fffbeb", "#fef3c7", "#fde68a", "#fcd34d", "#fbbf24", "#f59e0b",
    "#d97706", "#b45309", "#92400e", "#78350f", "#451a03"]),
   ("yellow", ["#fefce8", "#fef9c3", "#fef08a", "#fde047", "#facc15", "#eab308",
    "#ca8a04", "#a16207", "#854d0e", "#713f12", "#422006"]),
   ("green", ["#f0fdf4", "#dcfce7", "#bbf7d0", "#86efac", "#4ade80", "#22c55e",
    "#16a34a", "#15803d", "#166534", "#14532d", "#052e16"]),
   ("emerald", ["#ecfdf5", "#d1fae5", "#a7f3d0", "#6ee7b7", "#34d399", "#10b981",
    "#059669", "#047857", "#065f46", "#064e3b", "#022c22"]),
   ("teal", ["#f0fdfa", "#ccfbf1", "#99f6e4", "#5eead4", "#2dd4bf", "#14b8a6",
    "#0d9488", "#0f766e", "#115e59", "#134e4a", "#042f2e"]),
   ("sky", ["#f0f9ff", "#e0f2fe", "#bae6fd", "#7dd3fc", "#38bdf8", "#0ea5e9",
    "#0284c7", "#0369a1", "#075985", "#0c4a6e", "#082f49"]),
   ("blue", ["#eff6ff", "#dbeafe", "#bfdbfe", "#93c5fd", "#60a5fa", "#3b82f6",
    "#2563eb", "#1d4ed8", "#1e40af", "#1e3a8a", "#172554"]),
   ("indigo", ["#eef2ff", "#e0e7ff", "#c7d2fe", "#a5b4fc", "#818cf8", "#6366f1",
    "#4f46e5", "#4338ca", "#3730a3", "#312e81", "#1e1b4b"]),
   ("violet", ["#f5f3ff", "#ede9fe", "#ddd6fe", "#c4b5fd", "#a78bfa", "#8b5cf6",
    "#7c3aed", "#6d28d9", "#5b21b6", "#4c1d95", "#2e1065"]),
   ("purple", ["#faf5ff", "#f3e8ff", "#e9d5ff", "#d8b4fe", "#c084fc", "#a855f7",
    "#9333ea", "#7e22ce", "#6b21a8", "#581c87", "#3b0764"]),
   ("pink", ["#fdf2f8", "#fce7f3", "#fbcfe8", "#f9a8d4", "#f472b6", "#ec4899",
    "#db2777", "#be185d", "#9d174d", "#831843", "#500724"]),
   ("rose", ["#fff1f2", "#ffe4e6", "#fecdd3", "#fda4af", "#fb7185", "#f43f5e",
    "#e11d48", "#be123c", "#9f1239", "#881337", "#4c0519"])]

/-- hexadecimal text of a named colour -/
def lookup? (name : List Char) : Option String :=
  if name = "black".toList then some "#000000"
  else if name = "white".toList then some "#ffffff"
  else match splitLast? '-' name with
    | none => none
    | some (family, shade) =>
      match shades.idxOf? (String.ofList shade), palette.lookup (String.ofList family) with
      | some i, some colours => colours[i]?
      | _, _ => none

/-- all names with a colour -/
def paletteNames : List (List Char) :=
  "black".toList :: "white".toList ::
    palette.flatMap fun (family, _) => shades.map fun shade => family.toList ++ '-' :: shade.toList

theorem lookup?_mem {name : List Char} {hex : String} (h : lookup? name = some hex) : name ∈ paletteNames := by
  unfold lookup? at h
  split at h
  · rename_i hblack
    rw [hblack]
    exact List.mem_cons_self
  split at h
  · rename_i hwhite
    rw [hwhite]
    exact List.mem_cons_of_mem _ List.mem_cons_self
  split at h
  · cases h
  · rename_i family shade hsplit
    split at h
    · rename_i i colours hshade hfamily
      obtain ⟨before, after, hpalette, -⟩ := List.lookup_eq_some_iff.1 hfamily
      have hrow : (String.ofList family, colours) ∈ palette := by simp [hpalette]
      have hlisted : String.ofList shade ∈ shades := List.isSome_idxOf?.1 (Option.isSome_iff_exists.2 ⟨i, hshade⟩)
      refine List.mem_cons_of_mem _ (List.mem_cons_of_mem _ (List.mem_flatMap.2 ⟨_, hrow, List.mem_map.2 ?_⟩))
      refine ⟨_, hlisted, ?_⟩
      rw [eq_of_splitLast? hsplit, String.toList_ofList, String.toList_ofList]
    · cases h

def channelAt? (digits : List Char) (i : Nat) : Option Nat := natural? 16 ((digits.drop i).take 2)

/-- red, green and blue of a hexadecimal colour -/
def channels? (hex : List Char) : Option (Nat × Nat × Nat) :=
  match hex with
  | '#' :: digits =>
    if !digits.all isHexDigit then none
    else
      let six := if digits.length = 3 then digits.flatMap fun c => [c, c] else digits
      if six.length = 6 then
        match channelAt? six 0, channelAt? six 2, channelAt? six 4 with
        | some r, some g, some b => some (r, g, b)
        | _, _, _ => none
      else none
  | _ => none

end TsxWorkbench.Utility

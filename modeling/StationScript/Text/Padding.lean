namespace StationScript.Text

def padRight (width : Nat) (s : String) : String :=
  s ++ String.ofList (List.replicate (width - s.length) ' ')

def padLeft (width : Nat) (s : String) : String :=
  String.ofList (List.replicate (width - s.length) ' ') ++ s

def padded (width n : Nat) : String :=
  let digits := Nat.repr n
  String.ofList (List.replicate (width - digits.length) '0') ++ digits

theorem length_padRight (width : Nat) (s : String) : (padRight width s).length = max width s.length := by
  simp only [padRight, String.length_append, String.length_ofList, List.length_replicate]
  omega

theorem length_padLeft (width : Nat) (s : String) : (padLeft width s).length = max width s.length := by
  simp only [padLeft, String.length_append, String.length_ofList, List.length_replicate]
  omega

theorem length_padded (width n : Nat) : (padded width n).length = max width (Nat.repr n).length := by
  simp only [padded, String.length_append, String.length_ofList, List.length_replicate]
  omega

end StationScript.Text

namespace LineTint.Text

def gap (width length : Nat) : String := String.ofList (List.replicate (width - length) ' ')

/-- Sets a text at the left edge of a column; every character is as wide as another. -/
def alignLeft (width : Nat) (text : String) : String := text ++ gap width text.length

def alignRight (width : Nat) (text : String) : String := gap width text.length ++ text

end LineTint.Text

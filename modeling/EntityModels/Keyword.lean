namespace EntityModels.Keyword

def derive : String := "deriving"

def primary : String := "Primary"

def foreign : String := "Foreign"

def maybe : String := "Maybe"

def json : String := "json"

def sql : String := "sql"

def comment : String := "--"

end EntityModels.Keyword

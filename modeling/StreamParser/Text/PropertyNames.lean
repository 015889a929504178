/-!
# Names of properties of characters

The names that Unicode gives to the properties of characters, long and short.  A name is written
without regard to case, spaces, hyphens and underscores, and with or without a leading "is"
(`PropertyName.normalize`).
-/

namespace StreamParser.PropertyName

/-- Leave out a leading "is", and say whether there was one. -/
def dropIs : List Char → List Char × Bool
  | 'i' :: 's' :: rest => (rest, true)
  | 'I' :: 's' :: rest => (rest, true)
  | 'i' :: 'S' :: rest => (rest, true)
  | 'I' :: 'S' :: rest => (rest, true)
  | l => (l, false)

/-- The form of a name in which it is looked up.  The name "isc" keeps its "is", since "c" would be
the name of something else. -/
def normalize (name : String) : String :=
  let (kept, hadIs) := dropIs name.toList
  let kept := kept.filterMap fun c =>
    if c = ' ' || c = '-' || c = '_' || 0x80 ≤ c.toNat then none else some c.toLower
  if hadIs && kept == ['c'] then "isc" else String.ofList kept

/-- The names of all properties, in the form in which they are looked up. -/
def all : List String :=
  ["age", "ahex", "alpha", "alphabetic", "asciihexdigit", "bc", "bidic", "bidiclass",
   "bidicontrol", "bidim", "bidimirrored", "bidimirroringglyph", "bidipairedbracket",
   "bidipairedbrackettype", "blk", "block", "bmg", "bpb", "bpt", "canonicalcombiningclass",
   "cased", "casefolding", "caseignorable", "ccc", "ce", "cf", "changeswhencasefolded",
   "changeswhencasemapped", "changeswhenlowercased", "changeswhennfkccasefolded",
   "changeswhentitlecased", "changeswhenuppercased", "ci", "cjkaccountingnumeric",
   "cjkcompatibilityvariant", "cjkiicore", "cjkirggsource", "cjkirghsource", "cjkirgjsource",
   "cjkirgkpsource", "cjkirgksource", "cjkirgmsource", "cjkirgssource", "cjkirgtsource",
   "cjkirguksource", "cjkirgusource", "cjkirgvsource", "cjkothernumeric", "cjkprimarynumeric",
   "cjkrsunicode", "compex", "compositionexclusion", "cwcf", "cwcm", "cwkcf", "cwl", "cwt", "cwu",
   "dash", "decompositionmapping", "decompositiontype", "defaultignorablecodepoint", "dep",
   "deprecated", "di", "dia", "diacritic", "dm", "dt", "ea", "eastasianwidth", "ebase", "ecomp",
   "emod", "emoji", "emojicomponent", "emojimodifier", "emojimodifierbase", "emojipresentation",
   "epres", "equideo", "equivalentunifiedideograph", "expandsonnfc", "expandsonnfd",
   "expandsonnfkc", "expandsonnfkd", "ext", "extendedpictographic", "extender", "extpict",
   "fcnfkc", "fcnfkcclosure", "fullcompositionexclusion", "gc", "gcb", "generalcategory",
   "graphemebase", "graphemeclusterbreak", "graphemeextend", "graphemelink", "grbase", "grext",
   "grlink", "hangulsyllabletype", "hex", "hexdigit", "hst", "hyphen", "idc",
   "idcompatmathcontinue", "idcompatmathstart", "idcontinue", "ideo", "ideographic", "ids", "idsb",
   "idsbinaryoperator", "idst", "idstart", "idstrinaryoperator", "idsu", "idsunaryoperator",
   "incb", "indicconjunctbreak", "indicpositionalcategory", "indicsyllabiccategory", "inpc",
   "insc", "isc", "jamoshortname", "jg", "joinc", "joincontrol", "joininggroup", "joiningtype",
   "jsn", "jt", "kaccountingnumeric", "kcompatibilityvariant", "kehcat", "kehdesc", "kehhg",
   "kehifao", "kehjsesh", "kehnomirror", "kehnorotate", "kiicore", "kirggsource", "kirghsource",
   "kirgjsource", "kirgkpsource", "kirgksource", "kirgmsource", "kirgssource", "kirgtsource",
   "kirguksource", "kirgusource", "kirgvsource", "kothernumeric", "kprimarynumeric", "krsunicode",
   "lb", "lc", "linebreak", "loe", "logicalorderexception", "lower", "lowercase",
   "lowercasemapping", "math", "mcm", "modifiercombiningmark", "na", "na1", "name", "namealias",
   "nchar", "nfcqc", "nfcquickcheck", "nfdqc", "nfdquickcheck", "nfkccasefold", "nfkccf", "nfkcqc",
   "nfkcquickcheck", "nfkcscf", "nfkcsimplecasefold", "nfkdqc", "nfkdquickcheck",
   "noncharactercodepoint", "nt", "numerictype", "numericvalue", "nv", "oalpha", "ocomment", "odi",
   "ogrext", "oidc", "oids", "olower", "omath", "otheralphabetic",
   "otherdefaultignorablecodepoint", "othergraphemeextend", "otheridcontinue", "otheridstart",
   "otherlowercase", "othermath", "otheruppercase", "oupper", "patsyn", "patternsyntax",
   "patternwhitespace", "patws", "pcm", "prependedconcatenationmark", "qmark", "quotationmark",
   "radical", "regionalindicator", "ri", "sb", "sc", "scf", "script", "scriptextensions", "scx",
   "sd", "sentencebreak", "sentenceterminal", "sfc", "simplecasefolding", "simplelowercasemapping",
   "simpletitlecasemapping", "simpleuppercasemapping", "slc", "softdotted", "space", "stc",
   "sterm", "suc", "tc", "term", "terminalpunctuation", "titlecasemapping", "uc", "uideo",
   "unicode1name", "unicoderadicalstroke", "unifiedideograph", "upper", "uppercase",
   "uppercasemapping", "urs", "variationselector", "verticalorientation", "vo", "vs", "wb",
   "whitespace", "wordbreak", "wspace", "xidc", "xidcontinue", "xids", "xidstart", "xonfc",
   "xonfd", "xonfkc", "xonfkd"]

/-- There is a property with the name. -/
def isKnown (name : String) : Bool := all.contains (normalize name)

end StreamParser.PropertyName

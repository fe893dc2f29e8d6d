import SipEcho.Xml.Feed

/-!
`xml_entity_find`: the character that an entity stands for, by its number or its name.

* `xmlEntities`: the table of the source;
* `xmlEntityFind`: a number stands behind a `#`, in the base that its first digits say;
* `xmlEntityFind_symbol`: what is found is one `&` or has none.
-/

namespace SipEcho

/-- `xml_entity_t`. -/
structure XmlEntity where
  symbol : Str
  number : ℤ
  entity : Str

/-- `__xml_entity`. -/
def xmlEntities : List XmlEntity := [
  ⟨[], 0, str "nil"⟩, ⟨[34], 34, str "quot"⟩, ⟨[39], 39, str "apos"⟩, ⟨[38], 38, str "amp"⟩,
  ⟨[60], 60, str "lt"⟩, ⟨[62], 62, str "gt"⟩, ⟨[32], 160, str "nbsp"⟩,
  ⟨[194, 161], 161, str "iexcl"⟩, ⟨[194, 162], 162, str "cent"⟩, ⟨[194, 163], 163, str "pound"⟩,
  ⟨[194, 164], 164, str "curren"⟩, ⟨[194, 165], 165, str "yen"⟩, ⟨[194, 166], 166, str "brvbar"⟩,
  ⟨[194, 167], 167, str "sect"⟩, ⟨[194, 168], 168, str "uml"⟩, ⟨[194, 169], 169, str "copy"⟩,
  ⟨[194, 170], 170, str "ordf"⟩, ⟨[194, 171], 171, str "laquo"⟩, ⟨[194, 172], 172, str "not"⟩,
  ⟨[], 173, str "shy"⟩, ⟨[194, 174], 174, str "reg"⟩, ⟨[194, 175], 175, str "macr"⟩,
  ⟨[194, 176], 176, str "deg"⟩, ⟨[194, 177], 177, str "plusmn"⟩, ⟨[194, 178], 178, str "sup2"⟩,
  ⟨[194, 179], 179, str "sup3"⟩, ⟨[194, 180], 180, str "acute"⟩, ⟨[194, 181], 181, str "micro"⟩,
  ⟨[194, 182], 182, str "para"⟩, ⟨[194, 183], 183, str "middot"⟩, ⟨[194, 184], 184, str "cedil"⟩,
  ⟨[194, 185], 185, str "sup1"⟩, ⟨[194, 186], 186, str "ordm"⟩, ⟨[194, 187], 187, str "raquo"⟩,
  ⟨[194, 188], 188, str "frac14"⟩, ⟨[194, 189], 189, str "frac12"⟩,
  ⟨[194, 190], 190, str "frac34"⟩, ⟨[194, 191], 191, str "iquest"⟩, ⟨[195, 151], 215, str "times"⟩,
  ⟨[195, 183], 247, str "divide"⟩, ⟨[195, 128], 192, str "Agrave"⟩,
  ⟨[195, 129], 193, str "Aacute"⟩, ⟨[195, 130], 194, str "Acirc"⟩, ⟨[195, 131], 195, str "Atilde"⟩,
  ⟨[195, 132], 196, str "Auml"⟩, ⟨[195, 133], 197, str "Aring"⟩, ⟨[195, 134], 198, str "AElig"⟩,
  ⟨[195, 135], 199, str "Ccedil"⟩, ⟨[195, 136], 200, str "Egrave"⟩,
  ⟨[195, 137], 201, str "Eacute"⟩, ⟨[195, 138], 202, str "Ecirc"⟩, ⟨[195, 139], 203, str "Euml"⟩,
  ⟨[195, 140], 204, str "Igrave"⟩, ⟨[195, 141], 205, str "Iacute"⟩, ⟨[195, 142], 206, str "Icirc"⟩,
  ⟨[195, 143], 207, str "Iuml"⟩, ⟨[195, 144], 208, str "ETH"⟩, ⟨[195, 145], 209, str "Ntilde"⟩,
  ⟨[195, 146], 210, str "Ograve"⟩, ⟨[195, 147], 211, str "Oacute"⟩, ⟨[195, 148], 212, str "Ocirc"⟩,
  ⟨[195, 149], 213, str "Otilde"⟩, ⟨[195, 150], 214, str "Ouml"⟩, ⟨[195, 152], 216, str "Oslash"⟩,
  ⟨[195, 153], 217, str "Ugrave"⟩, ⟨[195, 154], 218, str "Uacute"⟩, ⟨[195, 155], 219, str "Ucirc"⟩,
  ⟨[195, 156], 220, str "Uuml"⟩, ⟨[195, 157], 221, str "Yacute"⟩, ⟨[195, 158], 222, str "THORN"⟩,
  ⟨[195, 159], 223, str "szlig"⟩, ⟨[195, 160], 224, str "agrave"⟩, ⟨[195, 161], 225, str "aacute"⟩,
  ⟨[195, 162], 226, str "acirc"⟩, ⟨[195, 163], 227, str "atilde"⟩, ⟨[195, 164], 228, str "auml"⟩,
  ⟨[195, 165], 229, str "aring"⟩, ⟨[195, 166], 230, str "aelig"⟩, ⟨[195, 167], 231, str "ccedil"⟩,
  ⟨[195, 168], 232, str "egrave"⟩, ⟨[195, 169], 233, str "eacute"⟩, ⟨[195, 170], 234, str "ecirc"⟩,
  ⟨[195, 171], 235, str "euml"⟩, ⟨[195, 172], 236, str "igrave"⟩, ⟨[195, 173], 237, str "iacute"⟩,
  ⟨[195, 174], 238, str "icirc"⟩, ⟨[195, 175], 239, str "iuml"⟩, ⟨[195, 176], 240, str "eth"⟩,
  ⟨[195, 177], 241, str "ntilde"⟩, ⟨[195, 178], 242, str "ograve"⟩,
  ⟨[195, 179], 243, str "oacute"⟩, ⟨[195, 180], 244, str "ocirc"⟩, ⟨[195, 181], 245, str "otilde"⟩,
  ⟨[195, 182], 246, str "ouml"⟩, ⟨[195, 184], 248, str "oslash"⟩, ⟨[195, 185], 249, str "ugrave"⟩,
  ⟨[195, 186], 250, str "uacute"⟩, ⟨[195, 187], 251, str "ucirc"⟩, ⟨[195, 188], 252, str "uuml"⟩,
  ⟨[195, 189], 253, str "yacute"⟩, ⟨[195, 190], 254, str "thorn"⟩, ⟨[195, 191], 255, str "yuml"⟩,
  ⟨[226, 136, 128], 8704, str "forall"⟩, ⟨[226, 136, 130], 8706, str "part"⟩,
  ⟨[226, 136, 131], 8707, str "exist"⟩, ⟨[226, 136, 133], 8709, str "empty"⟩,
  ⟨[226, 136, 135], 8711, str "nabla"⟩, ⟨[226, 136, 136], 8712, str "isin"⟩,
  ⟨[226, 136, 137], 8713, str "notin"⟩, ⟨[226, 136, 139], 8715, str "ni"⟩,
  ⟨[226, 136, 143], 8719, str "prod"⟩, ⟨[226, 136, 145], 8721, str "sum"⟩,
  ⟨[226, 136, 146], 8722, str "minus"⟩, ⟨[226, 136, 151], 8727, str "lowast"⟩,
  ⟨[226, 136, 154], 8730, str "radic"⟩, ⟨[226, 136, 157], 8733, str "prop"⟩,
  ⟨[226, 136, 158], 8734, str "infin"⟩, ⟨[226, 136, 160], 8736, str "ang"⟩,
  ⟨[226, 136, 167], 8743, str "and"⟩, ⟨[226, 136, 168], 8744, str "or"⟩,
  ⟨[226, 136, 169], 8745, str "cap"⟩, ⟨[226, 136, 170], 8746, str "cup"⟩,
  ⟨[226, 136, 171], 8747, str "int"⟩, ⟨[226, 136, 180], 8756, str "there4"⟩,
  ⟨[226, 136, 188], 8764, str "sim"⟩, ⟨[226, 137, 133], 8773, str "cong"⟩,
  ⟨[226, 137, 136], 8776, str "asymp"⟩, ⟨[226, 137, 160], 8800, str "ne"⟩,
  ⟨[226, 137, 161], 8801, str "equiv"⟩, ⟨[226, 137, 164], 8804, str "le"⟩,
  ⟨[226, 137, 165], 8805, str "ge"⟩, ⟨[226, 138, 130], 8834, str "sub"⟩,
  ⟨[226, 138, 131], 8835, str "sup"⟩, ⟨[226, 138, 132], 8836, str "nsub"⟩,
  ⟨[226, 138, 134], 8838, str "sube"⟩, ⟨[226, 138, 135], 8839, str "supe"⟩,
  ⟨[226, 138, 149], 8853, str "oplus"⟩, ⟨[226, 138, 151], 8855, str "otimes"⟩,
  ⟨[226, 138, 165], 8869, str "perp"⟩, ⟨[226, 139, 133], 8901, str "sdot"⟩,
  ⟨[206, 145], 913, str "Alpha"⟩, ⟨[206, 146], 914, str "Beta"⟩, ⟨[206, 147], 915, str "Gamma"⟩,
  ⟨[206, 148], 916, str "Delta"⟩, ⟨[206, 149], 917, str "Epsilon"⟩, ⟨[206, 150], 918, str "Zeta"⟩,
  ⟨[206, 151], 919, str "Eta"⟩, ⟨[206, 152], 920, str "Theta"⟩, ⟨[206, 153], 921, str "Iota"⟩,
  ⟨[206, 154], 922, str "Kappa"⟩, ⟨[206, 155], 923, str "Lambda"⟩, ⟨[206, 156], 924, str "Mu"⟩,
  ⟨[206, 157], 925, str "Nu"⟩, ⟨[206, 158], 926, str "Xi"⟩, ⟨[206, 159], 927, str "Omicron"⟩,
  ⟨[206, 160], 928, str "Pi"⟩, ⟨[206, 161], 929, str "Rho"⟩, ⟨[], 930, str "Sigmaf"⟩,
  ⟨[206, 163], 931, str "Sigma"⟩, ⟨[206, 164], 932, str "Tau"⟩, ⟨[206, 165], 933, str "Upsilon"⟩,
  ⟨[206, 166], 934, str "Phi"⟩, ⟨[206, 167], 935, str "Chi"⟩, ⟨[206, 168], 936, str "Psi"⟩,
  ⟨[206, 169], 937, str "Omega"⟩, ⟨[206, 177], 945, str "alpha"⟩, ⟨[206, 178], 946, str "beta"⟩,
  ⟨[206, 179], 947, str "gamma"⟩, ⟨[206, 180], 948, str "delta"⟩, ⟨[206, 181], 949, str "epsilon"⟩,
  ⟨[206, 182], 950, str "zeta"⟩, ⟨[206, 183], 951, str "eta"⟩, ⟨[206, 184], 952, str "theta"⟩,
  ⟨[206, 185], 953, str "iota"⟩, ⟨[206, 186], 954, str "kappa"⟩, ⟨[206, 187], 955, str "lambda"⟩,
  ⟨[206, 188], 956, str "mu"⟩, ⟨[206, 189], 957, str "nu"⟩, ⟨[206, 190], 958, str "xi"⟩,
  ⟨[206, 191], 959, str "omicron"⟩, ⟨[207, 128], 960, str "pi"⟩, ⟨[207, 129], 961, str "rho"⟩,
  ⟨[207, 130], 962, str "sigmaf"⟩, ⟨[207, 131], 963, str "sigma"⟩, ⟨[207, 132], 964, str "tau"⟩,
  ⟨[207, 133], 965, str "upsilon"⟩, ⟨[207, 134], 966, str "phi"⟩, ⟨[207, 135], 967, str "chi"⟩,
  ⟨[207, 136], 968, str "psi"⟩, ⟨[207, 137], 969, str "omega"⟩, ⟨[207, 145], 977, str "thetasym"⟩,
  ⟨[207, 146], 978, str "upsih"⟩, ⟨[207, 150], 982, str "piv"⟩, ⟨[197, 146], 338, str "OElig"⟩,
  ⟨[197, 147], 339, str "oelig"⟩, ⟨[197, 160], 352, str "Scaron"⟩, ⟨[197, 161], 353, str "scaron"⟩,
  ⟨[197, 184], 376, str "Yuml"⟩, ⟨[198, 146], 402, str "fnof"⟩, ⟨[203, 134], 710, str "circ"⟩,
  ⟨[203, 156], 732, str "tilde"⟩, ⟨[32], 8194, str "ensp"⟩, ⟨[32], 8195, str "emsp"⟩,
  ⟨[32], 8201, str "thinsp"⟩, ⟨[], 8204, str "zwnj"⟩, ⟨[], 8205, str "zwj"⟩, ⟨[], 8206, str "lrm"⟩,
  ⟨[], 8207, str "rlm"⟩, ⟨[226, 128, 147], 8211, str "ndash"⟩,
  ⟨[226, 128, 148], 8212, str "mdash"⟩, ⟨[226, 128, 152], 8216, str "lsquo"⟩,
  ⟨[226, 128, 153], 8217, str "rsquo"⟩, ⟨[226, 128, 154], 8218, str "sbquo"⟩,
  ⟨[226, 128, 156], 8220, str "ldquo"⟩, ⟨[226, 128, 157], 8221, str "rdquo"⟩,
  ⟨[226, 128, 158], 8222, str "bdquo"⟩, ⟨[226, 128, 160], 8224, str "dagger"⟩,
  ⟨[226, 128, 161], 8225, str "Dagger"⟩, ⟨[226, 128, 162], 8226, str "bull"⟩,
  ⟨[226, 128, 166], 8230, str "hellip"⟩, ⟨[226, 128, 176], 8240, str "permil"⟩,
  ⟨[226, 128, 178], 8242, str "prime"⟩, ⟨[226, 128, 179], 8243, str "Prime"⟩,
  ⟨[226, 128, 185], 8249, str "lsaquo"⟩, ⟨[226, 128, 186], 8250, str "rsaquo"⟩,
  ⟨[226, 128, 190], 8254, str "oline"⟩, ⟨[226, 130, 172], 8364, str "euro"⟩,
  ⟨[226, 132, 162], 8482, str "trade"⟩, ⟨[226, 134, 144], 8592, str "larr"⟩,
  ⟨[226, 134, 145], 8593, str "uarr"⟩, ⟨[226, 134, 146], 8594, str "rarr"⟩,
  ⟨[226, 134, 147], 8595, str "darr"⟩, ⟨[226, 134, 148], 8596, str "harr"⟩,
  ⟨[226, 134, 181], 8629, str "crarr"⟩, ⟨[226, 140, 136], 8968, str "lceil"⟩,
  ⟨[226, 140, 137], 8969, str "rceil"⟩, ⟨[226, 140, 138], 8970, str "lfloor"⟩,
  ⟨[226, 140, 139], 8971, str "rfloor"⟩, ⟨[226, 151, 138], 9674, str "loz"⟩,
  ⟨[226, 153, 160], 9824, str "spades"⟩, ⟨[226, 153, 163], 9827, str "clubs"⟩,
  ⟨[226, 153, 165], 9829, str "hearts"⟩, ⟨[226, 153, 166], 9830, str "diams"⟩]

/-- `xml_entity_find`, of the first bytes of what stands there; the first entity of the table is for
those it does not have. -/
def xmlEntityFind (entity : Str) (length : ℕ) : Str :=
  let code := if entity.head? = some 35 then toInt (strtolBy anyDigits (entity.drop 1)) else 0
  match xmlEntities.find? fun e =>
    if code ≠ 0 then code = e.number else xmlTextCmp e.entity (entity.take length) with
  | some e => e.symbol
  | none => []

lemma xmlEntities_symbol : ∀ e ∈ xmlEntities, e.symbol = [38] ∨ 38 ∉ e.symbol := by
  decide +kernel

/-- **No symbol has an entity in it**. -/
lemma xmlEntityFind_symbol (entity : Str) (length : ℕ) :
    xmlEntityFind entity length = [38] ∨ 38 ∉ xmlEntityFind entity length := by
  rw [xmlEntityFind]
  split
  · rename_i e he
    exact xmlEntities_symbol e (List.mem_of_find?_eq_some he)
  · exact .inr List.not_mem_nil

example : xmlEntityFind (str "AMP;") 3 = str "&" := by decide

example : xmlEntityFind (str "#0x26;") 5 = str "&" := by decide

end SipEcho

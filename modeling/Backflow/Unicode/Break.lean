import Backflow.Unicode.Property

namespace Backflow.Unicode

/-! Classes of characters that tell where grapheme clusters, words and sentences end. -/

def carriageReturn : Definition := .table ["D"]

def lineFeed : Definition := .table ["A"]

def zeroWidthJoiner : Definition := .table ["200D"]

namespace Cluster

def extend : Definition := graphemeExtend ∪ emojiModifier

def controls : Definition :=
  (control ∪ format ∪ lineSeparator ∪ paragraphSeparator ∪ (defaultIgnorable \ assigned)) \
    (carriageReturn ∪ lineFeed ∪ zeroWidthJoiner ∪ prependedConcatenationMark ∪ extend)

def leading : Definition := .table ["1100-115F A960-A97C"]

def vowel : Definition := .table ["1160-11A7 D7B0-D7C6 16D63 16D67-16D6A"]

def trailing : Definition := .table ["11A8-11FF D7CB-D7FB"]

/-- Syllables without a trailing consonant. -/
def openSyllable : Definition := .table ["AC00-D788/1C"]

def closedSyllable : Definition := .table ["AC00-D7A3"] \ openSyllable

def prepend : Definition :=
  prependedConcatenationMark ∪
    .table ["D4E 111C2-111C3 113D1 1193F 11941 11A3A 11A84-11A89 11D46 11F02"]

def spacing : Definition :=
  (spacingMark ∪ .table ["E33 EB3"]) \ (graphemeExtend ∪ .table [
    "102B-102C 1038 1062-1064 1067-106D 1083 1087-108C 108F 109A-109C 1A61 1A63-1A64 AA7B AA7D",
    "11720-11721"])

end Cluster

def clusterBreaks : Glossary := [
  (["cn", "control"], Cluster.controls), (["cr"], carriageReturn),
  (["ex", "extend"], Cluster.extend), (["l"], Cluster.leading), (["lf"], lineFeed),
  (["lv"], Cluster.openSyllable), (["lvt"], Cluster.closedSyllable),
  (["pp", "prepend"], Cluster.prepend), (["ri", "regionalindicator"], regionalIndicator),
  (["sm", "spacingmark"], Cluster.spacing), (["t"], Cluster.trailing), (["v"], Cluster.vowel),
  (["zwj"], zeroWidthJoiner)]

namespace Word

def extend : Definition := graphemeExtend ∪ emojiModifier ∪ spacingMark

def hebrewLetter : Definition :=
  .table ["5D0-5EA 5EF-5F2 FB1D FB1F-FB28 FB2A-FB36 FB38-FB3C FB3E FB40-FB41 FB43-FB44 FB46-FB4F"]

def katakana : Definition := .table [
  "3031-3035 309B-309C 30A0-30FA 30FC-30FF 31F0-31FF 32D0-32FE 3300-3357 FF66-FF9D 1AFF0-1AFF3",
  "1AFF5-1AFFB 1AFFD-1AFFE 1B000 1B120-1B122 1B155 1B164-1B167"]

def hiragana : Definition := .table ["3041-3096 309D-309F 1B001-1B11F 1B132 1B150-1B152"]

/-- Letters of scripts that are written without blanks between words. -/
def unspaced : Definition := .table [
  "E01-E30 E32-E33 E40-E46 E81-E82 E84 E86-E8A E8C-EA3 EA5 EA7-EB0 EB2-EB3 EBD EC0-EC4 EC6",
  "EDC-EDF 1000-102A 103F 1050-1055 105A-105D 1061 1065-1066 106E-1070 1075-1081 108E 1780-17B3",
  "17D7 17DC 1950-196D 1970-1974 1980-19AB 19B0-19C9 1A20-1A54 1AA7 A9E0-A9E4 A9E6-A9EF A9FA-A9FE",
  "AA60-AA76 AA7A AA7E-AAAF AAB1 AAB5-AAB6 AAB9-AABD AAC0 AAC2 AADB-AADD 11700-1171A 11740-11746"]

/-- Signs that belong to words. -/
def joining : Definition := .table [
  "2C2-2C5 2D2-2D7 2DE-2DF 2E5-2EB 2ED 2EF-2FF 55A-55C 55E 58A 5F3 70F A708-A716 A720-A721",
  "A789-A78A AB5B"]

def letters : Definition :=
  (alphabetic ∪ joining) \ (ideographic ∪ katakana ∪ hiragana ∪ unspaced ∪ hebrewLetter ∪ extend)

def numeric : Definition :=
  decimalNumber ∪ .table ["66B"] ∪ (prependedConcatenationMark \ .table ["70F"])

def extendNumLet : Definition := connectorPunctuation ∪ .table ["202F"]

def formats : Definition :=
  format \ (.table ["200B-200D"] ∪ prependedConcatenationMark ∪ extend)

def midNum : Definition :=
  .table ["2C 3B 37E 589 60C-60D 66C 7F8 2044 FE10 FE14 FE50 FE54 FF0C FF1B"]

def newline : Definition := .table ["B-C 85 2028-2029"]

def segmentSpace : Definition := spaceSeparator \ .table ["A0 2007 202F"]

def doubleQuote : Definition := .table ["22"]

end Word

def wordBreaks : Glossary := [
  (["le", "aletter"], Word.letters), (["cr"], carriageReturn),
  (["dq", "doublequote"], Word.doubleQuote), (["extend"], Word.extend),
  (["ex", "extendnumlet"], Word.extendNumLet), (["fo", "format"], Word.formats),
  (["hl", "hebrewletter"], Word.hebrewLetter), (["ka", "katakana"], Word.katakana),
  (["lf"], lineFeed), (["ml", "midletter"], midLetter), (["mn", "midnum"], Word.midNum),
  (["mb", "midnumlet"], midNumLet), (["nl", "newline"], Word.newline),
  (["nu", "numeric"], Word.numeric), (["ri", "regionalindicator"], regionalIndicator),
  (["sq", "singlequote"], singleQuote), (["wsegspace"], Word.segmentSpace),
  (["zwj"], zeroWidthJoiner)]

namespace Sentence

def ambiguousEnd : Definition := .table ["2E 2024 FE52 FF0E"]

def close : Definition :=
  openPunctuation ∪ closePunctuation ∪ initialPunctuation ∪ finalPunctuation ∪
    .table ["22 27 275B-2760 2E00-2E01 2E06-2E08 2E0B 1F676-1F678"]

def extend : Definition := graphemeExtend ∪ spacingMark ∪ zeroWidthJoiner

def formats : Definition :=
  format \ (.table ["200C-200D"] ∪ prependedConcatenationMark ∪ extend)

def lower : Definition := lowercase \ (graphemeExtend ∪ .table ["10D0-10FA 10FD-10FF"])

def upper : Definition := (uppercase ∪ titlecaseLetter) \ .table ["1C90-1CBA 1CBD-1CBF"]

def letters : Definition := (alphabetic ∪ .table ["5F3"]) \ (lower ∪ upper ∪ extend)

def numeric : Definition := Word.numeric ∪ .table ["66C"]

def continuing : Definition := .table [
  "2C-2D 3A-3B 37E 55D 60C-60D 7F8 1802 1808 2013-2014 3001 FE10-FE11 FE13-FE14 FE31-FE32",
  "FE50-FE51 FE54-FE55 FE58 FE63 FF0C-FF0D FF1A-FF1B FF64"]

def definiteEnd : Definition := sentenceTerminal \ ambiguousEnd

def separators : Definition := .table ["85 2028-2029"]

def blanks : Definition := whiteSpace \ .table ["A D 85 2028-2029"]

end Sentence

def sentenceBreaks : Glossary := [
  (["at", "aterm"], Sentence.ambiguousEnd), (["cr"], carriageReturn),
  (["cl", "close"], Sentence.close), (["ex", "extend"], Sentence.extend),
  (["fo", "format"], Sentence.formats), (["lf"], lineFeed), (["lo", "lower"], Sentence.lower),
  (["nu", "numeric"], Sentence.numeric), (["le", "oletter"], Sentence.letters),
  (["sc", "scontinue"], Sentence.continuing), (["st", "sterm"], Sentence.definiteEnd),
  (["se", "sep"], Sentence.separators), (["sp"], Sentence.blanks),
  (["up", "upper"], Sentence.upper)]

end Backflow.Unicode

import FieldCopy.Text.Category
import FieldCopy.Text.Identifier

/-!
# Properties of characters

The sets of characters that a pattern can name: the categories, the larger scripts and the
properties that go across them.
-/

namespace FieldCopy

namespace Property

/-- The alphabetic characters that are neither letters nor letter numbers. -/
def otherAlphabetic : CharSet := .ofText
    "345 363-36f 5b0-5bd 5bf 5c1-5c2 5c4-5c5 5c7 610-61a 64b-657 659-65f 670 6d6-6dc 6e1-6e4 6e7-6e8
    6ed 711 730-73f 7a6-7b0 816-817 81b-823 825-827 829-82c 897 8d4-8df 8e3-8e9 8f0-903 93a-93b
    93e-94c 94e-94f 955-957 962-963 981-983 9be-9c4 9c7-9c8 9cb-9cc 9d7 9e2-9e3 a01-a03 a3e-a42
    a47-a48 a4b-a4c a51 a70-a71 a75 a81-a83 abe-ac5 ac7-ac9 acb-acc ae2-ae3 afa-afc b01-b03
    b3e-b44 b47-b48 b4b-b4c b56-b57 b62-b63 b82 bbe-bc2 bc6-bc8 bca-bcc bd7 c00-c04 c3e-c44
    c46-c48 c4a-c4c c55-c56 c62-c63 c81-c83 cbe-cc4 cc6-cc8 cca-ccc cd5-cd6 ce2-ce3 cf3 d00-d03
    d3e-d44 d46-d48 d4a-d4c d57 d62-d63 d81-d83 dcf-dd4 dd6 dd8-ddf df2-df3 e31 e34-e3a e4d eb1
    eb4-eb9 ebb-ebc ecd f71-f83 f8d-f97 f99-fbc 102b-1036 1038 103b-103e 1056-1059 105e-1060
    1062-1064 1067-106d 1071-1074 1082-108d 108f 109a-109d 1712-1713 1732-1733 1752-1753 1772-1773
    17b6-17c8 1885-1886 18a9 1920-192b 1930-1938 1a17-1a1b 1a55-1a5e 1a61-1a74 1abf-1ac0 1acc-1ace
    1b00-1b04 1b35-1b43 1b80-1b82 1ba1-1ba9 1bac-1bad 1be7-1bf1 1c24-1c36 1dd3-1df4 24b6-24e9
    2de0-2dff a674-a67b a69e-a69f a802 a80b a823-a827 a880-a881 a8b4-a8c3 a8c5 a8ff a926-a92a
    a947-a952 a980-a983 a9b4-a9bf a9e5 aa29-aa36 aa43 aa4c-aa4d aa7b-aa7d aab0 aab2-aab4 aab7-aab8
    aabe aaeb-aaef aaf5 abe3-abea fb1e 10376-1037a 10a01-10a03 10a05-10a06 10a0c-10a0f 10d24-10d27
    10d69 10eab-10eac 10efa-10efc 11000-11002 11038-11045 11073-11074 11080-11082 110b0-110b8
    110c2 11100-11102 11127-11132 11145-11146 11180-11182 111b3-111bf 111ce-111cf 1122c-11234
    11237 1123e 11241 112df-112e8 11300-11303 1133e-11344 11347-11348 1134b-1134c 11357
    11362-11363 113b8-113c0 113c2 113c5 113c7-113ca 113cc-113cd 11435-11441 11443-11445
    114b0-114c1 115af-115b5 115b8-115be 115dc-115dd 11630-1163e 11640 116ab-116b5 1171d-1172a
    1182c-11838 11930-11935 11937-11938 1193b-1193c 11940 11942 119d1-119d7 119da-119df 119e4
    11a01-11a0a 11a35-11a39 11a3b-11a3e 11a51-11a5b 11a8a-11a97 11b60-11b67 11c2f-11c36
    11c38-11c3e 11c92-11ca7 11ca9-11cb6 11d31-11d36 11d3a 11d3c-11d3d 11d3f-11d41 11d43 11d47
    11d8a-11d8e 11d90-11d91 11d93-11d96 11ef3-11ef6 11f00-11f01 11f03 11f34-11f3a 11f3e-11f40
    1611e-1612e 16f4f 16f51-16f87 16f8f-16f92 16ff0-16ff1 1bc9e 1e000-1e006 1e008-1e018
    1e01b-1e021 1e023-1e024 1e026-1e02a 1e08f 1e6e3 1e6e6 1e6ee-1e6ef 1e6f5 1e947 1f130-1f149
    1f150-1f169 1f170-1f189"

/-- The characters that count as lower case although they are no lower case letters. -/
def otherLowercase : CharSet := .ofText
    "aa ba 2b0-2b8 2c0-2c1 2e0-2e4 345 37a 10fc 1d2c-1d6a 1d78 1d9b-1dbf 2071 207f 2090-209c
    2170-217f 24d0-24e9 2c7c-2c7d a69c-a69d a770 a7f1-a7f4 a7f8-a7f9 ab5c-ab5f ab69 10780
    10783-10785 10787-107b0 107b2-107ba 1e030-1e06d"

/-- The characters that count as upper case although they are no upper case letters. -/
def otherUppercase : CharSet := .ofText
    "2160-216f 24b6-24cf 1f130-1f149 1f150-1f169 1f170-1f189"

/-- The alphabetic characters. -/
def alphabetic : CharSet := (Category.anyOf ["l", "nl"]).union otherAlphabetic

/-- The decimal digits of all scripts. -/
def digit : CharSet := Category.anyOf ["nd"]

/-- The blanks. -/
def blank : CharSet := .ofText "9-d 20 85 a0 1680 2000-200a 2028-2029 202f 205f 3000"

/-- The letters, digits and the underscore of ASCII. -/
def asciiWordPart : CharSet := .ofText "30-39 41-5a 5f 61-7a"

/-- The characters that words are made of: alphabetic ones, marks, digits, connecting punctuation
and the two joiners. -/
def wordPart : CharSet :=
  (alphabetic.union (Category.anyOf ["m", "nd", "pc"])).union (.range 0x200C 0x200D)

/-- The emoji. -/
def emoji : CharSet := .ofText
    "23 2a 30-39 a9 ae 203c 2049 2122 2139 2194-2199 21a9-21aa 231a-231b 2328 23cf 23e9-23f3
    23f8-23fa 24c2 25aa-25ab 25b6 25c0 25fb-25fe 2600-2604 260e 2611 2614-2615 2618 261d 2620
    2622-2623 2626 262a 262e-262f 2638-263a 2640 2642 2648-2653 265f-2660 2663 2665-2666 2668
    267b 267e-267f 2692-2697 2699 269b-269c 26a0-26a1 26a7 26aa-26ab 26b0-26b1 26bd-26be
    26c4-26c5 26c8 26ce-26cf 26d1 26d3-26d4 26e9-26ea 26f0-26f5 26f7-26fa 26fd 2702 2705
    2708-270d 270f 2712 2714 2716 271d 2721 2728 2733-2734 2744 2747 274c 274e 2753-2755 2757
    2763-2764 2795-2797 27a1 27b0 27bf 2934-2935 2b05-2b07 2b1b-2b1c 2b50 2b55 3030 303d 3297
    3299 1f004 1f0cf 1f170-1f171 1f17e-1f17f 1f18e 1f191-1f19a 1f1e6-1f1ff 1f201-1f202 1f21a
    1f22f 1f232-1f23a 1f250-1f251 1f300-1f321 1f324-1f393 1f396-1f397 1f399-1f39b 1f39e-1f3f0
    1f3f3-1f3f5 1f3f7-1f4fd 1f4ff-1f53d 1f549-1f54e 1f550-1f567 1f56f-1f570 1f573-1f57a 1f587
    1f58a-1f58d 1f590 1f595-1f596 1f5a4-1f5a5 1f5a8 1f5b1-1f5b2 1f5bc 1f5c2-1f5c4 1f5d1-1f5d3
    1f5dc-1f5de 1f5e1 1f5e3 1f5e8 1f5ef 1f5f3 1f5fa-1f64f 1f680-1f6c5 1f6cb-1f6d2 1f6d5-1f6d8
    1f6dc-1f6e5 1f6e9 1f6eb-1f6ec 1f6f0 1f6f3-1f6fc 1f7e0-1f7eb 1f7f0 1f90c-1f93a 1f93c-1f945
    1f947-1f9ff 1fa70-1fa7c 1fa80-1fa8a 1fa8e-1fac6 1fac8 1facd-1fadc 1fadf-1faea 1faef-1faf8"

/-- The scripts that a pattern can name, with their long and short names. -/
def scripts : List (List String × CharSet) :=
  [(["arabic", "arab"], .ofText "600-604 606-60b 60d-61a 61c-61e 620-63f 641-64a 656-66f 671-6dc
    6de-6ff 750-77f 870-891 897-8e1 8e3-8ff fb50-fd3d fd40-fdcf fdf0-fdff fe70-fe74 fe76-fefc
    10e60-10e7e 10ec2-10ec7 10ed0-10ed8 10efa-10eff 1ee00-1ee03 1ee05-1ee1f 1ee21-1ee22 1ee24
    1ee27 1ee29-1ee32 1ee34-1ee37 1ee39 1ee3b 1ee42 1ee47 1ee49 1ee4b 1ee4d-1ee4f 1ee51-1ee52
    1ee54 1ee57 1ee59 1ee5b 1ee5d 1ee5f 1ee61-1ee62 1ee64 1ee67-1ee6a 1ee6c-1ee72 1ee74-1ee77
    1ee79-1ee7c 1ee7e 1ee80-1ee89 1ee8b-1ee9b 1eea1-1eea3 1eea5-1eea9 1eeab-1eebb 1eef0-1eef1"),
    (["armenian", "armn"], .ofText "531-556 559-58a 58d-58f fb13-fb17"),
    (["bengali", "beng"], .ofText "980-983 985-98c 98f-990 993-9a8 9aa-9b0 9b2 9b6-9b9 9bc-9c4
    9c7-9c8 9cb-9ce 9d7 9dc-9dd 9df-9e3 9e6-9fe"),
    (["bopomofo", "bopo"], .ofText "2ea-2eb 3105-312f 31a0-31bf"),
    (["braille", "brai"], .ofText "2800-28ff"),
    (["cherokee", "cher"], .ofText "13a0-13f5 13f8-13fd ab70-abbf"),
    (["common", "zyyy"], .ofText "0-40 5b-60 7b-a9 ab-b9 bb-bf d7 f7 2b9-2df 2e5-2e9 2ec-2ff 374 37e
    385 387 605 60c 61b 61f 640 6dd 8e2 964-965 e3f fd5-fd8 10fb 16eb-16ed 1735-1736 1802-1803
    1805 1cd3 1ce1 1ce9-1cec 1cee-1cf3 1cf5-1cf7 1cfa 2000-200b 200e-2064 2066-2070 2074-207e
    2080-208e 20a0-20c1 2100-2125 2127-2129 212c-2131 2133-214d 214f-215f 2189-218b 2190-2429
    2440-244a 2460-27ff 2900-2b73 2b76-2bff 2e00-2e5d 2ff0-3004 3006 3008-3020 3030-3037 303c-303f
    309b-309c 30a0 30fb-30fc 3190-319f 31c0-31e5 31ef 3220-325f 327f-32cf 32ff 3358-33ff 4dc0-4dff
    a700-a721 a788-a78a a830-a839 a92e a9cf ab5b ab6a-ab6b fd3e-fd3f fe10-fe19 fe30-fe52 fe54-fe66
    fe68-fe6b feff ff01-ff20 ff3b-ff40 ff5b-ff65 ff70 ff9e-ff9f ffe0-ffe6 ffe8-ffee fff9-fffd
    10100-10102 10107-10133 10137-1013f 10190-1019c 101d0-101fc 102e1-102fb 1bca0-1bca3
    1cc00-1ccfc 1cd00-1ceb3 1ceba-1ced0 1cee0-1cef0 1cf50-1cfc3 1d000-1d0f5 1d100-1d126
    1d129-1d166 1d16a-1d17a 1d183-1d184 1d18c-1d1a9 1d1ae-1d1ea 1d2c0-1d2d3 1d2e0-1d2f3
    1d300-1d356 1d360-1d378 1d400-1d454 1d456-1d49c 1d49e-1d49f 1d4a2 1d4a5-1d4a6 1d4a9-1d4ac
    1d4ae-1d4b9 1d4bb 1d4bd-1d4c3 1d4c5-1d505 1d507-1d50a 1d50d-1d514 1d516-1d51c 1d51e-1d539
    1d53b-1d53e 1d540-1d544 1d546 1d54a-1d550 1d552-1d6a5 1d6a8-1d7cb 1d7ce-1d7ff 1ec71-1ecb4
    1ed01-1ed3d 1f000-1f02b 1f030-1f093 1f0a0-1f0ae 1f0b1-1f0bf 1f0c1-1f0cf 1f0d1-1f0f5
    1f100-1f1ad 1f1e6-1f1ff 1f201-1f202 1f210-1f23b 1f240-1f248 1f250-1f251 1f260-1f265
    1f300-1f6d8 1f6dc-1f6ec 1f6f0-1f6fc 1f700-1f7d9 1f7e0-1f7eb 1f7f0 1f800-1f80b 1f810-1f847
    1f850-1f859 1f860-1f887 1f890-1f8ad 1f8b0-1f8bb 1f8c0-1f8c1 1f8d0-1f8d8 1f900-1fa57
    1fa60-1fa6d 1fa70-1fa7c 1fa80-1fa8a 1fa8e-1fac6 1fac8 1facd-1fadc 1fadf-1faea 1faef-1faf8
    1fb00-1fb92 1fb94-1fbfa e0001 e0020-e007f"),
    (["coptic", "copt"], .ofText "3e2-3ef 2c80-2cf3 2cf9-2cff"),
    (["cyrillic", "cyrl"], .ofText "400-484 487-52f 1c80-1c8a 1d2b 1d78 2de0-2dff a640-a69f
    fe2e-fe2f 1e030-1e06d 1e08f"),
    (["devanagari", "deva"], .ofText "900-950 955-963 966-97f a8e0-a8ff 11b00-11b09"),
    (["ethiopic", "ethi"], .ofText "1200-1248 124a-124d 1250-1256 1258 125a-125d 1260-1288 128a-128d
    1290-12b0 12b2-12b5 12b8-12be 12c0 12c2-12c5 12c8-12d6 12d8-1310 1312-1315 1318-135a 135d-137c
    1380-1399 2d80-2d96 2da0-2da6 2da8-2dae 2db0-2db6 2db8-2dbe 2dc0-2dc6 2dc8-2dce 2dd0-2dd6
    2dd8-2dde ab01-ab06 ab09-ab0e ab11-ab16 ab20-ab26 ab28-ab2e 1e7e0-1e7e6 1e7e8-1e7eb
    1e7ed-1e7ee 1e7f0-1e7fe"),
    (["georgian", "geor"], .ofText "10a0-10c5 10c7 10cd 10d0-10fa 10fc-10ff 1c90-1cba 1cbd-1cbf
    2d00-2d25 2d27 2d2d"),
    (["gothic", "goth"], .ofText "10330-1034a"),
    (["greek", "grek"], .ofText "370-373 375-377 37a-37d 37f 384 386 388-38a 38c 38e-3a1 3a3-3e1
    3f0-3ff 1d26-1d2a 1d5d-1d61 1d66-1d6a 1dbf 1f00-1f15 1f18-1f1d 1f20-1f45 1f48-1f4d 1f50-1f57
    1f59 1f5b 1f5d 1f5f-1f7d 1f80-1fb4 1fb6-1fc4 1fc6-1fd3 1fd6-1fdb 1fdd-1fef 1ff2-1ff4 1ff6-1ffe
    2126 ab65 10140-1018e 101a0 1d200-1d245"),
    (["gujarati", "gujr"], .ofText "a81-a83 a85-a8d a8f-a91 a93-aa8 aaa-ab0 ab2-ab3 ab5-ab9 abc-ac5
    ac7-ac9 acb-acd ad0 ae0-ae3 ae6-af1 af9-aff"),
    (["gurmukhi", "guru"], .ofText "a01-a03 a05-a0a a0f-a10 a13-a28 a2a-a30 a32-a33 a35-a36 a38-a39
    a3c a3e-a42 a47-a48 a4b-a4d a51 a59-a5c a5e a66-a76"),
    (["han", "hani"], .ofText "2e80-2e99 2e9b-2ef3 2f00-2fd5 3005 3007 3021-3029 3038-303b 3400-4dbf
    4e00-9fff f900-fa6d fa70-fad9 16fe2-16fe3 16ff0-16ff6 20000-2a6df 2a700-2b81d 2b820-2cead
    2ceb0-2ebe0 2ebf0-2ee5d 2f800-2fa1d 30000-3134a 31350-33479"),
    (["hangul", "hang"], .ofText "1100-11ff 302e-302f 3131-318e 3200-321e 3260-327e a960-a97c
    ac00-d7a3 d7b0-d7c6 d7cb-d7fb ffa0-ffbe ffc2-ffc7 ffca-ffcf ffd2-ffd7 ffda-ffdc"),
    (["hebrew", "hebr"], .ofText "591-5c7 5d0-5ea 5ef-5f4 fb1d-fb36 fb38-fb3c fb3e fb40-fb41
    fb43-fb44 fb46-fb4f"),
    (["hiragana", "hira"], .ofText "3041-3096 309d-309f 1b001-1b11f 1b132 1b150-1b152 1f200"),
    (["inherited", "zinh"], .ofText "300-36f 485-486 64b-655 670 951-954 1ab0-1add 1ae0-1aeb
    1cd0-1cd2 1cd4-1ce0 1ce2-1ce8 1ced 1cf4 1cf8-1cf9 1dc0-1dff 200c-200d 20d0-20f0 302a-302d
    3099-309a fe00-fe0f fe20-fe2d 101fd 102e0 1133b 1cf00-1cf2d 1cf30-1cf46 1d167-1d169 1d17b-1d182
    1d185-1d18b 1d1aa-1d1ad e0100-e01ef"),
    (["kannada", "knda"], .ofText "c80-c8c c8e-c90 c92-ca8 caa-cb3 cb5-cb9 cbc-cc4 cc6-cc8 cca-ccd
    cd5-cd6 cdc-cde ce0-ce3 ce6-cef cf1-cf3"),
    (["katakana", "kana"], .ofText "30a1-30fa 30fd-30ff 31f0-31ff 32d0-32fe 3300-3357 ff66-ff6f
    ff71-ff9d 1aff0-1aff3 1aff5-1affb 1affd-1affe 1b000 1b120-1b122 1b155 1b164-1b167"),
    (["khmer", "khmr"], .ofText "1780-17dd 17e0-17e9 17f0-17f9 19e0-19ff"),
    (["lao", "laoo"], .ofText "e81-e82 e84 e86-e8a e8c-ea3 ea5 ea7-ebd ec0-ec4 ec6 ec8-ece ed0-ed9
    edc-edf"),
    (["latin", "latn"], .ofText "41-5a 61-7a aa ba c0-d6 d8-f6 f8-2b8 2e0-2e4 1d00-1d25 1d2c-1d5c
    1d62-1d65 1d6b-1d77 1d79-1dbe 1e00-1eff 2071 207f 2090-209c 212a-212b 2132 214e 2160-2188
    2c60-2c7f a722-a787 a78b-a7dc a7f1-a7ff ab30-ab5a ab5c-ab64 ab66-ab69 fb00-fb06 ff21-ff3a
    ff41-ff5a 10780-10785 10787-107b0 107b2-107ba 1df00-1df1e 1df25-1df2a"),
    (["malayalam", "mlym"], .ofText "d00-d0c d0e-d10 d12-d44 d46-d48 d4a-d4f d54-d63 d66-d7f"),
    (["mongolian", "mong"], .ofText "1800-1801 1804 1806-1819 1820-1878 1880-18aa 11660-1166c"),
    (["myanmar", "mymr"], .ofText "1000-109f a9e0-a9fe aa60-aa7f 116d0-116e3"),
    (["sinhala", "sinh"], .ofText "d81-d83 d85-d96 d9a-db1 db3-dbb dbd dc0-dc6 dca dcf-dd4 dd6
    dd8-ddf de6-def df2-df4 111e1-111f4"),
    (["syriac", "syrc"], .ofText "700-70d 70f-74a 74d-74f 860-86a"),
    (["tamil", "taml"], .ofText "b82-b83 b85-b8a b8e-b90 b92-b95 b99-b9a b9c b9e-b9f ba3-ba4 ba8-baa
    bae-bb9 bbe-bc2 bc6-bc8 bca-bcd bd0 bd7 be6-bfa 11fc0-11ff1 11fff"),
    (["telugu", "telu"], .ofText "c00-c0c c0e-c10 c12-c28 c2a-c39 c3c-c44 c46-c48 c4a-c4d c55-c56
    c58-c5a c5c-c5d c60-c63 c66-c6f c77-c7f"),
    (["thaana", "thaa"], .ofText "780-7b1"),
    (["thai", "thai"], .ofText "e01-e3a e40-e5b"),
    (["tibetan", "tibt"], .ofText "f00-f47 f49-f6c f71-f97 f99-fbc fbe-fcc fce-fd4 fd9-fda")]

/-- The script with this name. -/
def script? (name : String) : Option CharSet :=
  (scripts.find? fun s => s.1.contains name).map (·.2)

/-- The lower case characters. -/
def lowercase : CharSet := (Category.anyOf ["ll"]).union otherLowercase

/-- The upper case characters. -/
def uppercase : CharSet := (Category.anyOf ["lu"]).union otherUppercase

/-- The properties that go across categories and scripts. -/
def binary : List (List String × CharSet) :=
  [(["any"], .full), (["ascii"], .range 0 0x7F), (["assigned"], Category.assigned),
    (["alphabetic", "alpha"], alphabetic),
    (["lowercase", "lower"], lowercase), (["uppercase", "upper"], uppercase),
    (["cased"], (lowercase.union uppercase).union (Category.anyOf ["lt"])),
    (["whitespace", "wspace", "space"], blank),
    (["joincontrol", "joinc"], .range 0x200C 0x200D),
    (["asciihexdigit", "ahex"], .ofText "30-39 41-46 61-66"),
    (["hexdigit", "hex"], .ofText "30-39 41-46 61-66 ff10-ff19 ff21-ff26 ff41-ff46"),
    (["emoji"], emoji),
    (["ideographic", "ideo"], .ofText
      "3006-3007 3021-3029 3038-303a 3400-4dbf 4e00-9fff f900-fa6d fa70-fad9 16fe4 16ff2-16ff6
      17000-18cd5 18cff-18d1e 18d80-18df2 1b170-1b2fb 20000-2a6df 2a700-2b81d 2b820-2cead
      2ceb0-2ebe0 2ebf0-2ee5d 2f800-2fa1d 30000-3134a 31350-33479"),
    (["xidstart", "xids"], identifierStarts.union (.ofText "41-5a 61-7a")),
    (["xidcontinue", "xidc"], identifierParts.union asciiWordPart)]

/-- The name of a property without case, blanks, hyphens, underscores and a leading `is`. -/
def normalName (name : String) : String :=
  let letters := name.toList
  let body := match letters with
    | i :: s :: rest => if i.toLower = 'i' && s.toLower = 's' then rest else letters
    | _ => letters
  String.ofList ((body.filter fun c =>
    c.toNat < 128 && !(c = ' ' || c = '_' || c = '-')).map Char.toLower)

/-- The set with this name.  Names of categories win over names of scripts. -/
def named? (name : String) : Option CharSet :=
  let n := normalName name
  ((binary.find? fun s => s.1.contains n).map (·.2)) <|> Category.named? n <|> script? n

/-- The set of the characters for which a property has this value. -/
def valued? (property value : String) : Option CharSet :=
  let p := normalName property
  let v := normalName value
  if p = "gc" || p = "generalcategory" then
    if v = "any" then some .full
    else if v = "ascii" then some (.range 0 0x7F)
    else if v = "assigned" then some Category.assigned
    else Category.named? v
  else if ["sc", "script", "scx", "scriptextensions"].contains p then script? v
  else none

end Property

end FieldCopy
